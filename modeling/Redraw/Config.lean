import Redraw.Title

/-!
# Configuration

What a host may set: the upscale factor, whether sprites are outlined, and, title by title, how much of a
game's own 3D pipeline keeps running.
-/

namespace Redraw

/-- How much of a game's own pipeline keeps running. -/
structure Policy where
  /-- Intercept the transform stage at all. -/
  hookTransform : Bool
  /-- Hand the transform stage an empty object list. -/
  disableTransform : Bool
  /-- Hand the rasterizer an empty primitive stream. -/
  disableRasterizer : Bool
  deriving DecidableEq, Repr, Inhabited

/-- The settings of a policy, named, between braces. -/
def Policy.text (p : Policy) : String :=
  "SuppressionPolicy \x7b hook_transform: " ++ toString p.hookTransform
    ++ ", disable_real_transform: " ++ toString p.disableTransform
    ++ ", disable_real_rasterizer: " ++ toString p.disableRasterizer ++ " \x7d"

/-- The settings that replace those of a title's own policy; a missing one keeps it. -/
structure Override where
  title : Title
  hookTransform : Option Bool
  disableTransform : Option Bool
  disableRasterizer : Option Bool
  deriving DecidableEq, Repr, Inhabited

def Override.apply (o : Override) (p : Policy) : Policy where
  hookTransform := o.hookTransform.getD p.hookTransform
  disableTransform := o.disableTransform.getD p.disableTransform
  disableRasterizer := o.disableRasterizer.getD p.disableRasterizer

structure Config where
  /-- The integer upscale factor. -/
  scale : Nat
  /-- Outline every sprite on the committed frame. -/
  debugDraw : Bool
  /-- The overrides of policies; the first one for a title counts. -/
  suppression : List Override
  deriving DecidableEq, Repr, Inhabited

namespace Config

/-- Native size, no outlines, no overrides. -/
def default : Config := ⟨1, false, []⟩

def validate (c : Config) : Except Error Unit :=
  if c.scale = 0 then .error (.invalidScale c.scale) else .ok ()

/-- The policy for a title: its own with the first override for it on top. -/
def policyFor (c : Config) (title : Title) (own : Policy) : Policy :=
  match c.suppression.find? (·.title = title) with
  | some o => o.apply own
  | none => own

end Config

end Redraw
