/-!
# Switches that may be left open

A switch of the configuration is on, off, or not given; one that is not given may be decided later,
once.

Facts: `resolve_resolve` (deciding twice is deciding once), `resolve_eq_self` (a given switch is
kept).
-/

namespace Headend.Config

/-- A switch that the configuration may leave open. -/
inductive Tristate where
  | undefined | on | off
deriving DecidableEq

namespace Tristate

/-- The switch for a yes or no. -/
def ofBool : Bool → Tristate
  | true => on
  | false => off

/-- The switch for a number: zero is off. -/
def ofFlag (n : Int) : Tristate := ofBool (n != 0)

/-- Whether the switch is on. -/
def isOn (t : Tristate) : Bool := t == on

/-- Whether the switch is left open. -/
def isUndefined (t : Tristate) : Bool := t == undefined

/-- The switch, with a value for the case that it is left open. -/
def resolve (t : Tristate) (value : Bool) : Tristate :=
  match t with
  | undefined => ofBool value
  | given => given

@[simp] theorem resolve_resolve (t : Tristate) (a b : Bool) :
    (t.resolve a).resolve b = t.resolve a := by
  cases t <;> cases a <;> rfl

theorem resolve_eq_self {t : Tristate} (h : t ≠ undefined) (b : Bool) : t.resolve b = t := by
  cases t <;> first | exact absurd rfl h | rfl

end Tristate

end Headend.Config
