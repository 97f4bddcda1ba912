import WarehouseLoader.Http.Transport
import WarehouseLoader.LoadJob.Job
import WarehouseLoader.Warehouse.Client

/-!
# What a load needs of a warehouse

The loader uses a warehouse through five operations on a state: opening a
channel for a load, writing a payload into it, closing it, waiting for the job
that this gave, and writing the log. Waiting has a bound, and no outcome means
that the bound was reached first.

`ofClient` is the warehouse over the network.
-/

namespace WarehouseLoader.Loader

open Http

structure WarehouseOps (σ ω : Type) where
  openChannel : LoadConfiguration → σ → Except LoadError ω × σ
  write : ω → Bytes → σ → Except LoadError Nat × ω × σ
  close : ω → σ → Except LoadError Job × σ
  /-- The number is of seconds. -/
  wait : Job → Nat → σ → Option (Except LoadError Job) × σ
  log : LogLevel → String → σ → σ

namespace WarehouseOps

open Auth Upload Warehouse

def ofClient {σ : Type} (c : Client) (T : Transport σ) :
    WarehouseOps (Connection σ) Channel where
  openChannel config s := c.openChannel T config s
  write ch data s := ch.write c.http T data s
  close ch s := ch.close c.http T s
  wait job seconds s := c.waitWithin T job seconds s
  log level text s := s.mapWorld (T.log level text)

end WarehouseOps

end WarehouseLoader.Loader
