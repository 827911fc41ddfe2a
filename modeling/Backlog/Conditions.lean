/-
# Named preconditions

A job may be guarded by preconditions such as "network available".  The index only records
their names; whether they hold is looked up here when a job is about to be handed out.

* `Conditions`: the known preconditions and whether each holds now;
* `Conditions.unmet`: the guards of a job that do not hold.  A name nobody registered counts as
  unmet, so no job runs without its preconditions being checked (`unmet_eq_nil_iff`).
-/
import Backlog.Job

namespace Backlog

/-- The known preconditions, each with whether it holds. -/
structure Conditions where
  flags : List (String × Bool) := []
deriving DecidableEq

namespace Conditions

/-- Whether a precondition is known and holds. -/
def holds (c : Conditions) (name : String) : Bool := c.flags.lookup name == some true

/-- Makes a precondition known, in place of any of the same name. -/
def register (c : Conditions) (name : String) (met : Bool) : Conditions :=
  ⟨(name, met) :: c.flags.filter (·.1 != name)⟩

/-- Records whether a precondition holds; nothing happens if it is not known. -/
def set (c : Conditions) (name : String) (met : Bool) : Conditions :=
  ⟨c.flags.map fun f => if f.1 == name then (name, met) else f⟩

/-- The names of the guards that do not hold, in the order of the guards. -/
def unmet (c : Conditions) (guards : List Guard) : List String :=
  (guards.filter fun g => !c.holds g.name).map Guard.name

theorem unmet_eq_nil_iff {c : Conditions} {guards : List Guard} :
    c.unmet guards = [] ↔ ∀ g ∈ guards, c.holds g.name = true := by
  simp [unmet, List.filter_eq_nil_iff]

end Conditions

end Backlog
