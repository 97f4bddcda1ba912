import Mathlib.Order.Bounds.Basic
import WarehouseLoader.Config.Basic

/-!
# The size of chunks

A channel sends chunks of a size that is a multiple of the alignment, the least
one that holds what was asked for (`Aligned`). Sizes have 64 bits, so there is
such a multiple only for what is not larger than `largestAligned`. There
everything holds that rounding up is good for: a second round changes nothing,
and who asks for more gets no less.

What is larger cannot be rounded, and no client is made for it: the program
breaks off instead. So the channels of a client have a size that a channel can
count in, however the client was made (`alignedChunkSize_iff`).
-/

namespace WarehouseLoader.Warehouse

open Auth Config Http Upload

/-- `size` is the least multiple of the alignment, other than none of it, that
holds `requested` bytes. -/
def Aligned (requested size : Nat) : Prop :=
  IsLeast {n | 0 < n ∧ alignment ∣ n ∧ requested ≤ n} size

/-- The largest multiple of the alignment among the sizes. -/
def largestAligned : Nat := UInt64.size - alignment

/-- A size that a channel can count in. -/
def IsChunkSize (size : Nat) : Prop := 0 < size ∧ alignment ∣ size

variable {requested more size : Nat}

namespace Aligned

theorem isChunkSize (h : Aligned requested size) : IsChunkSize size := ⟨h.1.1, h.1.2.1⟩

theorem requested_le (h : Aligned requested size) : requested ≤ size := h.1.2.2

theorem unique {size' : Nat} (h : Aligned requested size) (h' : Aligned requested size') :
    size = size' :=
  IsLeast.unique h h'

theorem mono {size' : Nat} (h : Aligned requested size) (h' : Aligned more size')
    (hle : requested ≤ more) : size ≤ size' :=
  h.2 ⟨h'.1.1, h'.1.2.1, Nat.le_trans hle h'.1.2.2⟩

end Aligned

theorem aligned_self (h : IsChunkSize size) : Aligned size size :=
  ⟨⟨h.1, h.2, Nat.le_refl size⟩, fun _ hn => hn.2.2⟩

/-- Rounding up, with no end to the numbers. -/
theorem aligned_roundUp (requested : Nat) :
    Aligned requested (max ((requested + (alignment - 1)) / alignment) 1 * alignment) := by
  refine ⟨⟨?_, Nat.dvd_mul_left _ _, ?_⟩, ?_⟩
  · simp only [alignment]
    omega
  · simp only [alignment]
    omega
  · rintro n ⟨hpos, ⟨k, rfl⟩, hle⟩
    rw [Nat.mul_comm alignment k]
    refine Nat.mul_le_mul_right alignment (Nat.max_le.mpr ⟨?_, ?_⟩)
    · simp only [alignment] at hle ⊢
      omega
    · exact Nat.pos_of_mul_pos_left hpos

/-! ### Sizes of 64 bits -/

theorem alignedChunkSize_eq_ok_iff :
    alignedChunkSize requested = .ok size ↔
      requested ≤ largestAligned ∧ Aligned requested size := by
  have hround := aligned_roundUp requested
  rw [alignedChunkSize, fitting_eq_ok_iff]
  refine and_congr ?_ ⟨fun heq => heq ▸ hround, hround.unique⟩
  simp only [largestAligned, alignment, UInt64.size]
  omega

theorem alignedChunkSize_eq_error_iff :
    alignedChunkSize requested = .error .overflow ↔ largestAligned < requested := by
  rw [alignedChunkSize, fitting_eq_error_iff, and_iff_left rfl]
  simp only [largestAligned, alignment, UInt64.size]
  omega

theorem le_largestAligned_of_ok (h : alignedChunkSize requested = .ok size) :
    size ≤ largestAligned := by
  obtain ⟨hle, haligned⟩ := alignedChunkSize_eq_ok_iff.mp h
  have hlargest : IsChunkSize largestAligned := by
    refine ⟨by decide, ?_⟩
    simp only [largestAligned, alignment, UInt64.size]
    omega
  exact haligned.mono (aligned_self hlargest) hle

theorem alignedChunkSize_idem (h : alignedChunkSize requested = .ok size) :
    alignedChunkSize size = .ok size :=
  alignedChunkSize_eq_ok_iff.mpr ⟨le_largestAligned_of_ok h,
    aligned_self (alignedChunkSize_eq_ok_iff.mp h).2.isChunkSize⟩

theorem exists_alignedChunkSize (h : requested ≤ largestAligned) :
    ∃ size, alignedChunkSize requested = .ok size ∧ Aligned requested size :=
  have hround := aligned_roundUp requested
  ⟨_, alignedChunkSize_eq_ok_iff.mpr ⟨h, hround⟩, hround⟩

theorem not_aligned_of_large (h : largestAligned < requested) (hsize : size < UInt64.size) :
    ¬ Aligned requested size := by
  intro haligned
  obtain ⟨k, hk⟩ := haligned.isChunkSize.2
  have hle := haligned.requested_le
  simp only [largestAligned, alignment, UInt64.size] at h hk hsize
  omega

/-! ### Channels -/

theorem Client.chunkSize_of_openChannel {σ : Type} {c : Client} {T : Transport σ}
    {load : LoadConfiguration} {s s' : Connection σ} {ch : Channel}
    (h : c.openChannel T load s = (.ok ch, s')) : ch.chunkSize = c.config.chunkSize := by
  rw [openChannel] at h
  split at h <;> cases h
  rfl

theorem Client.create_eq_ok_iff {http : HttpClient} {config : ClientConfig}
    {client : Client} :
    Client.create http config = .ok client ↔
      ∃ size, alignedChunkSize config.chunkSize = .ok size ∧
      ⟨http, { config with chunkSize := size }⟩ = client :=
  map_eq_ok_iff

theorem Client.create_eq_overflow_iff {http : HttpClient} {config : ClientConfig} :
    Client.create http config = .error .overflow ↔ largestAligned < config.chunkSize := by
  rw [Client.create, map_eq_error_iff, alignedChunkSize_eq_error_iff]

theorem clientConfig_eq_ok_iff {config : LoaderConfig} {settings : ClientConfig} :
    config.clientConfig = .ok settings ↔
      ∃ size, alignedChunkSize config.chunkSize = .ok size ∧
      ⟨size, config.polling.initial, config.polling.cap⟩ = settings :=
  map_eq_ok_iff

theorem clientConfig_eq_overflow_iff {config : LoaderConfig} :
    config.clientConfig = .error .overflow ↔ largestAligned < config.chunkSize := by
  rw [LoaderConfig.clientConfig, map_eq_error_iff, alignedChunkSize_eq_error_iff]

/-- The client of a configuration rounds what is configured twice, and the
second round changes nothing. -/
theorem config_of_client {config : LoaderConfig} {m : Machine} {client : Client}
    (h : config.client m = .ok client) : config.clientConfig = .ok client.config := by
  simp only [LoaderConfig.client, bind_eq_ok_iff] at h
  obtain ⟨http, -, settings, hsettings, hclient⟩ := h
  obtain ⟨size, hsize, rfl⟩ := clientConfig_eq_ok_iff.mp hsettings
  obtain ⟨size', hsize', rfl⟩ := Client.create_eq_ok_iff.mp hclient
  obtain rfl : size = size' :=
    Except.ok.inj ((alignedChunkSize_idem hsize).symm.trans hsize')
  exact hsettings

/-- A size of 64 bits is rounded exactly up to the largest multiple of the
alignment: to the least multiple that is large enough, which a second round
keeps, and which grows with what was asked for. Above there is no such size, and
the program breaks off. So it does where a client is to be made for what is too
large; the clients that there are open channels of the size that is the least
for what was asked of them, however often it was rounded. -/
theorem alignedChunkSize_iff (requested : Nat) :
    ((∃ size, alignedChunkSize requested = .ok size ∧ Aligned requested size) ↔
      requested ≤ largestAligned) ∧
    (alignedChunkSize requested = .error .overflow ↔ largestAligned < requested) ∧
    (largestAligned < requested → ∀ size < UInt64.size, ¬ Aligned requested size) ∧
    (∀ size, alignedChunkSize requested = .ok size →
      Aligned requested size ∧ alignedChunkSize size = .ok size ∧
      ∀ more size', requested ≤ more → alignedChunkSize more = .ok size' → size ≤ size') ∧
    (∀ (http : HttpClient) (config : ClientConfig), config.chunkSize = requested →
      (Client.create http config = .error .overflow ↔ largestAligned < requested) ∧
      ∀ client, Client.create http config = .ok client →
        ∀ {σ : Type} (T : Transport σ) (load : LoadConfiguration) (s s' : Connection σ)
          (ch : Channel), client.openChannel T load s = (.ok ch, s') →
          IsChunkSize ch.chunkSize ∧ Aligned requested ch.chunkSize) ∧
    ∀ (config : LoaderConfig) (m : Machine), config.chunkSize = requested →
      (config.clientConfig = .error .overflow ↔ largestAligned < requested) ∧
      (largestAligned < requested → ∀ client, config.client m ≠ .ok client) ∧
      ∀ client, config.client m = .ok client →
        config.clientConfig = .ok client.config ∧
        ∀ {σ : Type} (T : Transport σ) (load : LoadConfiguration) (s s' : Connection σ)
          (ch : Channel), client.openChannel T load s = (.ok ch, s') →
          ch.chunkSize = client.config.chunkSize ∧ IsChunkSize ch.chunkSize ∧
            Aligned requested ch.chunkSize := by
  refine ⟨⟨?_, exists_alignedChunkSize⟩, alignedChunkSize_eq_error_iff, fun hlarge size =>
    not_aligned_of_large hlarge, ?_, ?_, ?_⟩
  · rintro ⟨size, hsize, -⟩
    exact (alignedChunkSize_eq_ok_iff.mp hsize).1
  · intro size hsize
    have haligned := (alignedChunkSize_eq_ok_iff.mp hsize).2
    refine ⟨haligned, alignedChunkSize_idem hsize, fun more size' hle hmore => ?_⟩
    exact haligned.mono (alignedChunkSize_eq_ok_iff.mp hmore).2 hle
  · rintro http config rfl
    refine ⟨Client.create_eq_overflow_iff, fun client hclient σ T load s s' ch hopen => ?_⟩
    obtain ⟨size, hsize, rfl⟩ := Client.create_eq_ok_iff.mp hclient
    have haligned := (alignedChunkSize_eq_ok_iff.mp hsize).2
    rw [Client.chunkSize_of_openChannel hopen]
    exact ⟨haligned.isChunkSize, haligned⟩
  · rintro config m rfl
    refine ⟨clientConfig_eq_overflow_iff, fun hlarge client hclient => ?_,
      fun client hclient => ⟨config_of_client hclient, fun {σ} T load s s' ch hopen => ?_⟩⟩
    · cases (clientConfig_eq_overflow_iff.mpr hlarge).symm.trans (config_of_client hclient)
    · obtain ⟨size, hsize, hconfig⟩ := clientConfig_eq_ok_iff.mp (config_of_client hclient)
      have haligned := (alignedChunkSize_eq_ok_iff.mp hsize).2
      have hchannel : ch.chunkSize = client.config.chunkSize :=
        Client.chunkSize_of_openChannel hopen
      rw [hchannel, ← hconfig]
      exact ⟨rfl, haligned.isChunkSize, haligned⟩

theorem alignedChunkSize_iff_of_thousand :
    1000 ≤ largestAligned ∧ ∃ size, alignedChunkSize 1000 = .ok size ∧
      Aligned 1000 size := by
  have hle : 1000 ≤ largestAligned := by decide
  exact ⟨hle, (alignedChunkSize_iff 1000).1.mpr hle⟩

example : alignedChunkSize 1000 = .ok 262144 := by decide

/-- The largest size is rounded to nothing: there is no multiple of the
alignment among the sizes that holds so much, and the program breaks off. -/
theorem largest_request_overflows :
    alignedChunkSize (UInt64.size - 1) = .error .overflow ∧
    ∀ size < UInt64.size, ¬ Aligned (UInt64.size - 1) size :=
  ⟨by decide, fun _ => not_aligned_of_large (by decide)⟩

end WarehouseLoader.Warehouse
