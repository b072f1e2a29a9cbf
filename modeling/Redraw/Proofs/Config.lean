import Redraw.Config.Json
import Redraw.Proofs.Title

/-!
# Configurations are read back from what they are written as

A setting that is not made is left out when writing and is not made when its field is missing (`asSetting?_map_bool`), a
title is written as its code, and a list keeps its order. So an override is read back if its title is a code
(`asOverride?_toJson`), and reading yields no other overrides (`isCode_of_asOverride?`). A configuration survives writing
whenever its scale is a word and its titles are codes (`Config.ofJson?_toJson`), and reading yields no other
configurations (`Config.isPortable_of_ofJson?`).
-/

namespace Redraw

namespace Json

/-! ## Settings -/

@[simp]
theorem field?_cons_self (name : String) (v : Json) (fields : List (String × Json)) :
    field? ((name, v) :: fields) name = some v := by
  simp [field?]

@[simp]
theorem field?_cons_of_ne {name other : String} (h : name ≠ other) (v : Json) (fields : List (String × Json)) :
    field? ((other, v) :: fields) name = field? fields name := by
  rw [field?, List.lookup_cons, beq_false_of_ne h]
  rfl

@[simp]
theorem field?_append (left right : List (String × Json)) (name : String) :
    field? (left ++ right) name = (field? left name).or (field? right name) := List.lookup_append

@[simp]
theorem field?_settingField_self (name : String) (setting : Option Bool) :
    field? (Override.settingField name setting) name = setting.map bool := by
  cases setting with
  | none => rfl
  | some b => exact field?_cons_self name (.bool b) []

@[simp]
theorem field?_settingField_of_ne {name other : String} (h : name ≠ other) (setting : Option Bool) :
    field? (Override.settingField other setting) name = none := by
  cases setting with
  | none => rfl
  | some b => exact field?_cons_of_ne h (.bool b) []

@[simp]
theorem asSetting?_map_bool (setting : Option Bool) : asSetting? (setting.map bool) = some setting := by
  cases setting with
  | none => rfl
  | some b => rfl

/-! ## Overrides -/

theorem asTitle?_eq_some_iff {j : Json} {t : Title} : asTitle? j = some t ↔ t.IsCode ∧ j = .string t.text := by
  cases j with
  | string s =>
    rw [asTitle?, string.injEq, ← Title.parse_eq_ok_iff]
    cases Title.parse s with
    | ok u => simp [Except.toOption]
    | error e => simp [Except.toOption]
  | _ => simp [asTitle?]

theorem asOverride?_toJson {o : Override} (code : o.title.IsCode) : asOverride? o.toJson = some o := by
  have title : asTitle? (.string o.title.text) = some o.title := asTitle?_eq_some_iff.2 ⟨code, rfl⟩
  simp [Override.toJson, asOverride?, record?, title]

theorem isCode_of_asOverride? {j : Json} {o : Override} (h : asOverride? j = some o) : o.title.IsCode := by
  simp only [asOverride?, Option.bind_eq_bind, Option.bind_eq_some_iff, Option.pure_def, Option.some.injEq] at h
  obtain ⟨fields, -, v, -, title, read, hook, -, transform, -, rasterizer, -, rfl⟩ := h
  exact (asTitle?_eq_some_iff.1 read).1

theorem asOverrides?_toJson {os : List Override} (codes : ∀ o ∈ os, o.title.IsCode) :
    asOverrides? (.array (os.map Override.toJson)) = some os := by
  rw [asOverrides?]
  induction os with
  | nil => rfl
  | cons o os ih =>
    rw [List.forall_mem_cons] at codes
    rw [List.map_cons, List.mapM_cons, asOverride?_toJson codes.1, ih codes.2]
    rfl

theorem isCode_of_asOverrides? {j : Json} {os : List Override} (h : asOverrides? j = some os) :
    ∀ o ∈ os, o.title.IsCode := by
  cases j with
  | array items =>
    rw [asOverrides?] at h
    induction items generalizing os with
    | nil =>
      cases h
      exact List.forall_mem_nil _
    | cons item items ih =>
      simp only [List.mapM_cons, Option.bind_eq_bind, Option.bind_eq_some_iff, Option.pure_def, Option.some.injEq] at h
      obtain ⟨o, first, rest, others, rfl⟩ := h
      exact List.forall_mem_cons.2 ⟨isCode_of_asOverride? first, ih others⟩
  | _ => simp [asOverrides?] at h

/-! ## Fields of a configuration -/

theorem asScale?_eq_some_iff {j : Json} {k : Nat} :
    asScale? j = some k ↔ (k : Int) < Config.scaleBound ∧ j = .integer k := by
  cases j with
  | integer n =>
    rw [asScale?, integer.injEq]
    generalize Config.scaleBound = bound
    split <;> simp <;> omega
  | _ => simp [asScale?]

theorem fieldOr_of_field? {α : Type} {fields : List (String × Json)} {name : String} {v : Json}
    (h : field? fields name = some v) (missing : α) (read : Json → Option α) :
    fieldOr fields name missing read = read v := by
  rw [fieldOr, h]

theorem fieldOr_eq_some {α : Type} {fields : List (String × Json)} {name : String} {missing a : α}
    {read : Json → Option α} (h : fieldOr fields name missing read = some a) :
    a = missing ∨ ∃ v, read v = some a := by
  unfold fieldOr at h
  split at h
  · cases h
    exact .inl rfl
  · exact .inr ⟨_, h⟩

end Json

/-! ## Configurations -/

namespace Config

open Json

theorem ofJson?_eq_some_iff {j : Json} {c : Config} : ofJson? j = some c ↔ ∃ fields,
    record? fieldNames j = some fields ∧ fieldOr fields "scale" default.scale asScale? = some c.scale ∧
      fieldOr fields "debug_draw" default.debugDraw asBool? = some c.debugDraw ∧
      fieldOr fields "suppression" default.suppression asOverrides? = some c.suppression := by
  simp only [ofJson?, Option.bind_eq_bind, Option.bind_eq_some_iff, Option.pure_def, Option.some.injEq]
  constructor
  · rintro ⟨fields, record, _, scale, _, debugDraw, _, suppression, rfl⟩
    exact ⟨fields, record, scale, debugDraw, suppression⟩
  · rintro ⟨fields, record, scale, debugDraw, suppression⟩
    exact ⟨fields, record, _, scale, _, debugDraw, _, suppression, rfl⟩

/-- The scale is a word and the titles of the overrides are codes. -/
structure IsPortable (c : Config) : Prop where
  scale_lt : c.scale < scaleBound
  codes : ∀ o ∈ c.suppression, o.title.IsCode

theorem ofJson?_toJson {c : Config} (portable : c.IsPortable) : ofJson? c.toJson = some c := by
  refine ofJson?_eq_some_iff.2 ⟨_, rfl, ?_, ?_, ?_⟩
  · rw [fieldOr_of_field? (field?_cons_self ..), asScale?_eq_some_iff]
    exact ⟨portable.scale_lt, rfl⟩
  · rfl
  · rw [fieldOr_of_field? (v := .array (c.suppression.map Override.toJson)) rfl]
    exact asOverrides?_toJson portable.codes

theorem isPortable_of_ofJson? {j : Json} {c : Config} (h : ofJson? j = some c) : c.IsPortable := by
  obtain ⟨fields, -, scale, -, suppression⟩ := ofJson?_eq_some_iff.1 h
  constructor
  · rcases fieldOr_eq_some scale with same | ⟨v, read⟩
    · rw [same]
      decide
    · exact (asScale?_eq_some_iff.1 read).1
  · rcases fieldOr_eq_some suppression with same | ⟨v, read⟩
    · rw [same]
      exact List.forall_mem_nil _
    · exact isCode_of_asOverrides? read

/-- **Configurations survive writing.** What is read has only codes for titles and is read back from what it is written
as. So is every configuration whose scale is a word and whose titles are codes, whichever settings its overrides make and
however often they repeat a title, and what is read back has the same policy for every title. -/
theorem survives_writing :
    (∀ (j : Json) (c : Config), ofJson? j = some c →
      (∀ o ∈ c.suppression, o.title.IsCode) ∧ ofJson? c.toJson = some c) ∧
    ∀ c : Config, c.scale < scaleBound → (∀ o ∈ c.suppression, o.title.IsCode) →
      ofJson? c.toJson = some c ∧
        ∀ d, ofJson? c.toJson = some d → ∀ title own, d.policyFor title own = c.policyFor title own := by
  refine ⟨fun j c read => ?_, fun c scale codes => ?_⟩
  · have portable := isPortable_of_ofJson? read
    exact ⟨portable.codes, ofJson?_toJson portable⟩
  · have back := ofJson?_toJson ⟨scale, codes⟩
    refine ⟨back, fun d read title own => ?_⟩
    rw [Option.some.inj (read.symm.trans back)]

/-- A terse configuration, and one with the greatest scale that overrides the same title twice. -/
theorem survives_writing_repeated :
    let terse : Json :=
      .object [("suppression", .array [.array [.string "AOEX", .null, .bool true]]), ("scale", .integer 2)]
    let c : Config := ⟨0xFFFFFFFFFFFFFFFF, true,
      [⟨.ofChars 'B' 'Q' 'J' 'E', some true, none, none⟩, ⟨.ofChars 'B' 'Q' 'J' 'E', none, some false, some true⟩]⟩
    (∃ read, ofJson? terse = some read ∧ ofJson? read.toJson = some read) ∧
      c.scale < scaleBound ∧ (∀ o ∈ c.suppression, o.title.IsCode) ∧ ofJson? c.toJson = some c := by
  intro terse c
  have read : ofJson? terse = some ⟨2, false, [⟨.ofChars 'A' 'O' 'E' 'X', none, some true, none⟩]⟩ := by decide
  have scale : (c.scale : Int) < scaleBound := by decide
  have codes : ∀ o ∈ c.suppression, o.title.IsCode := by decide
  exact ⟨⟨_, read, (survives_writing.1 _ _ read).2⟩, scale, codes, (survives_writing.2 c scale codes).1⟩

end Config

end Redraw
