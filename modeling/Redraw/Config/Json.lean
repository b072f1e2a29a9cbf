import Redraw.Config
import Redraw.Json

/-!
# Configurations as JSON

A record with the fields `scale`, `debug_draw` and `suppression`, written as an object. Reading fills a missing
field in from the default configuration, passes over unknown fields and refuses a field of the wrong type. A
setting that an override does not make is left out when writing and may be missing or null when reading. Where a
record is read, an array with the values of its fields in order will do as well.
-/

namespace Redraw

/-- The number of scales that a configuration can hold: they are 64-bit words. -/
def Config.scaleBound : Int := 0x10000000000000000

/-! ## Reading -/

namespace Json

def asScale? : Json → Option Nat
  | .integer n => if 0 ≤ n ∧ n < Config.scaleBound then some n.toNat else none
  | _ => none

def asBool? : Json → Option Bool
  | .bool b => some b
  | _ => none

/-- A title, written as its code. -/
def asTitle? : Json → Option Title
  | .string s => (Title.parse s).toOption
  | _ => none

/-- A setting of an override: absent and null mean that it is not made. -/
def asSetting? : Option Json → Option (Option Bool)
  | none | some .null => some none
  | some v => (asBool? v).map some

/-- The names of the fields of an override, in order. -/
def overrideFields : List String :=
  ["title", "hook_transform", "disable_real_transform", "disable_real_rasterizer"]

def asOverride? (j : Json) : Option Override := do
  let fields ← record? overrideFields j
  let title ← asTitle? (← field? fields "title")
  let hook ← asSetting? (field? fields "hook_transform")
  let transform ← asSetting? (field? fields "disable_real_transform")
  let rasterizer ← asSetting? (field? fields "disable_real_rasterizer")
  return ⟨title, hook, transform, rasterizer⟩

def asOverrides? : Json → Option (List Override)
  | .array items => items.mapM asOverride?
  | _ => none

/-- A field that reads as `read` says, or `missing` when it is not there. -/
def fieldOr (fields : List (String × Json)) (name : String) (missing : α) (read : Json → Option α) :
    Option α :=
  match field? fields name with
  | none => some missing
  | some v => read v

end Json

/-- The names of the fields of a configuration, in order. -/
def Config.fieldNames : List String := ["scale", "debug_draw", "suppression"]

def Config.ofJson? (j : Json) : Option Config := do
  let fields ← Json.record? Config.fieldNames j
  let scale ← Json.fieldOr fields "scale" Config.default.scale Json.asScale?
  let debugDraw ← Json.fieldOr fields "debug_draw" Config.default.debugDraw Json.asBool?
  let suppression ← Json.fieldOr fields "suppression" Config.default.suppression Json.asOverrides?
  return ⟨scale, debugDraw, suppression⟩

/-! ## Writing -/

/-- The field of a setting, none when the setting is not made. -/
def Override.settingField (name : String) : Option Bool → List (String × Json)
  | none => []
  | some b => [(name, .bool b)]

def Override.toJson (o : Override) : Json :=
  .object (("title", .string o.title.text)
    :: settingField "hook_transform" o.hookTransform
    ++ settingField "disable_real_transform" o.disableTransform
    ++ settingField "disable_real_rasterizer" o.disableRasterizer)

def Config.toJson (c : Config) : Json :=
  .object [("scale", .integer c.scale), ("debug_draw", .bool c.debugDraw),
    ("suppression", .array (c.suppression.map Override.toJson))]

end Redraw
