import WarehouseLoader.Loader.Settings
import WarehouseLoader.Proofs.Number.Numeral
import WarehouseLoader.Proofs.Property.Accepted
import WarehouseLoader.Proofs.Template.Guard
import WarehouseLoader.Proofs.Template.Undefined

/-!
# Whether a valid property is well formed

Where a property supports templates, validation has the form of its value
checked if the value looks like a template, and a value looks like one if a
doubled opening brace is in it (`looksTemplated_iff`). The check itself would
refuse a doubled closing brace just as well. So one that stands in a value
without the other is not looked at (`Overlooked`): the list and the validator
decide about it like about any plain text, and where they accept it the unit
gets it as it was typed. Nothing else slips through.

A whole property is safe from that if its validator reads a number or a truth
value, in which there is no brace, or if no value on its list is of this kind.
The three properties of the loader that support templates have no list, and
their validator accepts every text with something to see.
-/

namespace WarehouseLoader

open Template (openMark closeMark)

/-- What is read as a truth value or a number has no brace. -/
theorem Validator.notMem_of_accepted {v : Validator} {value : String} (hv : v ≠ .nonEmpty)
    (h : v.complaint? value = none) : '}' ∉ value.toList := by
  cases v with
  | nonEmpty => exact absurd rfl hv
  | boolean =>
      obtain ⟨b, hb⟩ := exists_bool?_of_accepted h
      rw [bool?] at hb
      split at hb
      · next htrue =>
          rw [htrue]
          decide
      · split at hb
        · next hfalse =>
            rw [hfalse]
            decide
        · cases hb
  | nonNegativeInteger =>
      obtain ⟨n, hn⟩ := exists_nat32?_of_accepted h
      exact Numeral.notMem_of_readBelow (by decide) (by decide) hn
  | positiveInteger =>
      obtain ⟨n, hn, -⟩ := exists_nat64?_of_accepted h
      exact Numeral.notMem_of_readBelow (by decide) (by decide) hn

theorem isBlankText_of_closeMark {value : String} (h : closeMark <:+: value.toList) :
    Text.isBlankText value = false := by
  rw [Text.isBlankText, List.all_eq_false]
  exact ⟨'}', h.subset List.mem_cons_self, by decide⟩

namespace PropertyDescriptor

variable {d : PropertyDescriptor} {value : String}

/-- A closing mark, no opening one, and nothing that validation would have
against the value. -/
structure Overlooked (d : PropertyDescriptor) (value : String) : Prop where
  closes : closeMark <:+: value.toList
  unopened : ¬ openMark <:+: value.toList
  listed : d.allowable = [] ∨ value ∈ d.allowable
  accepted : d.validator.complaint? value = none

/-- An expression begins with the mark, so looking for that too adds nothing. -/
theorem looksTemplated_iff : looksTemplated value = true ↔ openMark <:+: value.toList := by
  rw [looksTemplated, Bool.or_eq_true, Template.holds_iff_infix,
    Template.hasExpressions_iff]
  refine or_iff_right_of_imp ?_
  rintro ⟨e, ⟨leading, trailing, -, -, -, hchars⟩, hinfix⟩
  have hopens : openMark <+: e.chars := by
    rw [hchars, List.append_assoc, List.append_assoc, List.append_assoc]
    exact List.prefix_append _ _
  exact hopens.isInfix.trans hinfix

theorem hasExpressions_of_unopened (h : ¬ openMark <:+: value.toList) :
    Template.hasExpressions value = false := by
  rw [← looksTemplated_iff, looksTemplated, Bool.or_eq_true, not_or] at h
  exact Bool.eq_false_iff.mpr h.1

theorem complaint?_eq_none_of_opened (htemplates : d.templates = true)
    (h : openMark <:+: value.toList) :
    d.complaint? (some value) = none ↔ Template.check value = .ok () := by
  simp only [complaint?, looksTemplated_iff.mpr h, htemplates, if_true]
  cases hcheck : Template.check value with
  | ok _ => exact ⟨fun _ => rfl, fun _ => rfl⟩
  | error e => exact ⟨fun hnone => (by cases hnone), fun hok => (by cases hok)⟩

theorem complaint?_eq_none_of_unopened (h : ¬ openMark <:+: value.toList) :
    d.complaint? (some value) = none ↔
      (d.allowable = [] ∨ value ∈ d.allowable) ∧ d.validator.complaint? value = none := by
  rw [← looksTemplated_iff] at h
  simp only [complaint?, h, Bool.false_eq_true, if_false]
  split
  · next hother =>
      exact ⟨fun hnone => (by cases hnone), fun h => absurd hother (listed_iff.mpr h.1)⟩
  · next hlisted => exact (and_iff_right (listed_iff.mp hlisted)).symm

/-- The values that are accepted although the check would refuse them. -/
theorem overlooked_iff (htemplates : d.templates = true) :
    d.Overlooked value ↔
      d.complaint? (some value) = none ∧ Template.check value ≠ .ok () := by
  constructor
  · intro h
    refine ⟨(complaint?_eq_none_of_unopened h.unopened).mpr ⟨h.listed, h.accepted⟩, ?_⟩
    rw [ne_eq, Template.check_eq_ok_iff_of_noExpressions
      (hasExpressions_of_unopened h.unopened)]
    exact fun hcheck => hcheck.2 h.closes
  · rintro ⟨haccepted, hcheck⟩
    have hunopened : ¬ openMark <:+: value.toList := fun hopened =>
      hcheck ((complaint?_eq_none_of_opened htemplates hopened).mp haccepted)
    obtain ⟨hlisted, hvalid⟩ := (complaint?_eq_none_of_unopened hunopened).mp haccepted
    rw [ne_eq, Template.check_eq_ok_iff_of_noExpressions
      (hasExpressions_of_unopened hunopened), not_and, Classical.not_not] at hcheck
    exact ⟨hcheck hunopened, hunopened, hlisted, hvalid⟩

theorem exists_overlooked_iff :
    (∃ value, d.Overlooked value) ↔ d.validator = .nonEmpty ∧
      (d.allowable = [] ∨ ∃ value ∈ d.allowable,
        closeMark <:+: value.toList ∧ ¬ openMark <:+: value.toList) := by
  have hvalid {value : String} (hnonEmpty : d.validator = .nonEmpty)
      (hcloses : closeMark <:+: value.toList) : d.validator.complaint? value = none := by
    rw [hnonEmpty, Validator.complaint?, isBlankText_of_closeMark hcloses]
    rfl
  constructor
  · rintro ⟨value, h⟩
    refine ⟨Classical.byContradiction fun hreads => ?_, h.listed.imp_right fun hmem =>
      ⟨value, hmem, h.closes, h.unopened⟩⟩
    exact Validator.notMem_of_accepted hreads h.accepted
      (h.closes.subset List.mem_cons_self)
  · rintro ⟨hnonEmpty, hany | ⟨value, hmem, hcloses, hunopened⟩⟩
    · have hcloses : closeMark <:+: (String.ofList closeMark).toList := by decide
      exact ⟨String.ofList closeMark, hcloses, by decide, .inl hany,
        hvalid hnonEmpty hcloses⟩
    · exact ⟨value, hcloses, hunopened, .inr hmem, hvalid hnonEmpty hcloses⟩

end PropertyDescriptor

namespace ProcessContext

variable {c : ProcessContext} {d : PropertyDescriptor} {value : String}
  {descriptors : List PropertyDescriptor} {i : Nat}

theorem raw_of_configured (h : c.properties.get? d.name = some value) :
    (c.property d).raw = some value := by
  rw [property, h, Option.some_or]

/-- Validation judges the declared properties in their order. -/
theorem validate_getElem? (hd : descriptors[i]? = some d) :
    (c.validate descriptors)[i]? = some ⟨d.name, d.complaint? (c.property d).raw⟩ := by
  obtain ⟨hi, -⟩ := List.getElem?_eq_some_iff.mp hd
  rw [validate, List.getElem?_append_left (by rwa [List.length_map]), List.getElem?_map, hd]
  rfl

theorem validate_of_configured (hd : descriptors[i]? = some d)
    (h : c.properties.get? d.name = some value) :
    (c.validate descriptors)[i]? = some ⟨d.name, d.complaint? (some value)⟩ := by
  rw [validate_getElem? hd, raw_of_configured h]

theorem evaluateRequired_of_overlooked (htemplates : d.templates = true)
    (h : c.properties.get? d.name = some value) (hover : d.Overlooked value)
    (attributes : Option Attributes) :
    (c.property d).evaluateRequired attributes = .ok value := by
  have hnone := PropertyDescriptor.hasExpressions_of_unopened hover.unopened
  have hevaluate : (c.property d).evaluate attributes = .ok (some value) := by
    have hdescriptor : (c.property d).descriptor.templates = true := htemplates
    rw [PropertyValue.evaluate, raw_of_configured h]
    simp only [hdescriptor, if_true, Template.render_of_noExpressions hnone]
    rfl
  rw [PropertyValue.evaluateRequired, hevaluate]
  simp only [isBlankText_of_closeMark hover.closes, Bool.false_eq_true, if_false]

/-- For a property that supports templates, a configured value is reported valid
and would be refused by the check exactly if it is overlooked, and then every
unit gets it as it is. All valid values of the property are well formed exactly
if its validator reads more than a text, or it has a list without a value to
overlook. -/
theorem validate_overlooks_iff (hd : descriptors[i]? = some d)
    (htemplates : d.templates = true) :
    (∀ (c : ProcessContext) (value : String), c.properties.get? d.name = some value →
      ∃ r, (c.validate descriptors)[i]? = some r ∧ r.subject = d.name ∧
        (r.valid = true ∧ Template.check value ≠ .ok () ↔ d.Overlooked value) ∧
        (d.Overlooked value → ∀ attributes,
          (c.property d).evaluateRequired attributes = .ok value)) ∧
    ((∀ (c : ProcessContext) (value : String), c.properties.get? d.name = some value →
      ∀ r, (c.validate descriptors)[i]? = some r → r.valid = true →
        Template.check value = .ok ()) ↔
      d.validator ≠ .nonEmpty ∨ d.allowable ≠ [] ∧ ∀ value ∈ d.allowable,
        closeMark <:+: value.toList → openMark <:+: value.toList) := by
  have hvalid (value : String) :
      (⟨d.name, d.complaint? (some value)⟩ : ValidationResult).valid = true ↔
        d.complaint? (some value) = none := Option.isNone_iff_eq_none
  refine ⟨fun c value h => ⟨_, validate_of_configured hd h, rfl, ?_,
    evaluateRequired_of_overlooked htemplates h⟩, ?_⟩
  · rw [hvalid, ← PropertyDescriptor.overlooked_iff htemplates]
  · have hsafe : (¬ ∃ value, d.Overlooked value) ↔
        d.validator ≠ .nonEmpty ∨ d.allowable ≠ [] ∧ ∀ value ∈ d.allowable,
          closeMark <:+: value.toList → openMark <:+: value.toList := by
      rw [PropertyDescriptor.exists_overlooked_iff, not_and_or, not_or]
      simp only [not_exists, not_and, Classical.not_not]
    rw [← hsafe]
    constructor
    · rintro hall ⟨value, hover⟩
      obtain ⟨haccepted, hcheck⟩ := (PropertyDescriptor.overlooked_iff htemplates).mp hover
      have hget : (empty.setProperty d.name value).properties.get? d.name = some value := by
        rw [setProperty, NameMap.get?_insert, if_pos rfl]
      exact hcheck (hall _ value hget _ (validate_of_configured hd hget)
        ((hvalid value).mpr haccepted))
    · intro hnone c value h r hr hreported
      obtain rfl := Option.some.inj ((validate_of_configured hd h).symm.trans hr)
      refine Classical.byContradiction fun hcheck => hnone ⟨value, ?_⟩
      exact (PropertyDescriptor.overlooked_iff htemplates).mpr
        ⟨(hvalid value).mp hreported, hcheck⟩

/-- A dataset that no table can be in is valid. -/
theorem validate_overlooks_iff_of_dataset :
    ∃ r, ((empty.setProperty "bq.dataset" "sales\x7d\x7d").validate Loader.properties)[1]? =
        some r ∧
      r.subject = "bq.dataset" ∧ r.valid = true ∧
      Template.check "sales\x7d\x7d" ≠ .ok () ∧
      ((empty.setProperty "bq.dataset" "sales\x7d\x7d").property
        Loader.dataset).evaluateRequired
        none = .ok "sales\x7d\x7d" := by
  have hd : Loader.properties[1]? = some Loader.dataset := rfl
  have htemplates : Loader.dataset.templates = true := rfl
  have hget : (empty.setProperty "bq.dataset" "sales\x7d\x7d").properties.get?
      Loader.dataset.name = some "sales\x7d\x7d" := by
    rw [setProperty, NameMap.get?_insert]
    exact if_pos rfl
  have hover : Loader.dataset.Overlooked "sales\x7d\x7d" :=
    ⟨by decide +kernel, by decide +kernel, .inl rfl, by decide +kernel⟩
  have hboth := validate_overlooks_iff hd htemplates
  obtain ⟨r, hr, hsubject, hreported, hverbatim⟩ := hboth.1 _ _ hget
  obtain ⟨hvalid, hcheck⟩ := hreported.mpr hover
  exact ⟨r, hr, hsubject, hvalid, hcheck, hverbatim hover none⟩

/-- All ten properties are accepted, the check refuses the first of them, and
the table that a unit is loaded into is in it. -/
theorem validate_accepts_malformed :
    let c : ProcessContext := ⟨NameMap.ofList [("gcp.project.id", "acme\x7d\x7d"),
      ("bq.dataset", "sales"), ("bq.table.name", "orders")], .null⟩
    ensureValid (c.validate Loader.properties) = .ok () ∧
      Template.check "acme\x7d\x7d" =
        .error (.template "malformed expression in 'acme\x7d\x7d'") ∧
      (Loader.LoadSettings.resolve c .empty).map (·.table) =
        .ok ⟨"acme\x7d\x7d", "sales", "orders"⟩ := by
  decide +kernel

end ProcessContext

/-- The loader has only such properties where it supports templates. -/
theorem Loader.exists_overlooked {d : PropertyDescriptor} (hd : d ∈ Loader.properties)
    (htemplates : d.templates = true) : ∃ value, d.Overlooked value := by
  have hplain : ∀ d ∈ Loader.properties, d.templates = true →
      d.validator = .nonEmpty ∧ d.allowable = [] := by
    decide
  obtain ⟨hvalidator, hany⟩ := hplain d hd htemplates
  exact PropertyDescriptor.exists_overlooked_iff.mpr ⟨hvalidator, .inl hany⟩

end WarehouseLoader
