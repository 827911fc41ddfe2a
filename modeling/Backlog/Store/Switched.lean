/-
# A store whose writes can be switched off

`Switched σ` puts a switch in front of a store.  While it is off every write is refused and
reads still reach the store behind it.
-/
import Backlog.Store

namespace Backlog

/-- A store with a switch for its writes. -/
structure Switched (σ : Type) where
  inner : σ
  refusing : Bool := false
deriving DecidableEq

namespace Switched

variable {σ : Type}

/-- Lets a write through, unless writes are switched off. -/
def guarded (s : Switched σ) (write : WriteCall) (act : σ → Except StoreError σ) :
    Except StoreError (Switched σ) :=
  if s.refusing then .error (.refused write) else (act s.inner).map fun t => { s with inner := t }

@[simp] theorem guarded_of_refusing {s : Switched σ} (h : s.refusing = true)
    (write : WriteCall) (act : σ → Except StoreError σ) :
    s.guarded write act = .error (.refused write) := by
  simp [guarded, h]

@[simp] theorem guarded_of_not_refusing {s : Switched σ} (h : s.refusing = false)
    (write : WriteCall) (act : σ → Except StoreError σ) :
    s.guarded write act = (act s.inner).map fun t => { s with inner := t } := by
  simp [guarded, h]

/-- Switches writes off, or on again. -/
def refuse (s : Switched σ) (refusing : Bool) : Switched σ := { s with refusing }

instance [Storage σ] : Storage (Switched σ) where
  load s := Storage.load s.inner
  insert batch s := s.guarded .insert (Storage.insert batch)
  setRunning id running s := s.guarded .setRunning (Storage.setRunning id running)
  reschedule id running attempt due payload s :=
    s.guarded .reschedule (Storage.reschedule id running attempt due payload)
  clearRunning s := s.guarded .clearRunning Storage.clearRunning
  amend jobs s := s.guarded .amend (Storage.amend jobs)
  delete ids s := s.guarded .delete (Storage.delete ids)

end Switched

end Backlog
