/-
# Changes made in place

An operation of an index returns the changed index or an error, and an error brings no index with
it.  That leaves open what would become of a change that breaks off halfway.  Here the same changes
are made in place, one assignment after the other, first in the store and then in the roster, and
whatever was assigned by then stays.

* `Edit`: assignments one after the other, until one of them breaks off;
* `Edit.store`, `Edit.follow`: what a change does to the store, and to the roster after that;
* `Edit.change`: the whole of a change;
* `Edit.Makes`: an edit that ends where an operation says, and that breaks off before its first
  assignment if the operation says that there is an error;
* `Edit.change_makes`: **every change does what its operation says, and is broken off only before
  anything is assigned.**
-/
import Backlog.Proofs.Run

namespace Backlog

/-- Assignments to a state, one after the other, until one breaks off.  What was assigned stays. -/
abbrev Edit (ε σ : Type) : Type → Type := EStateM ε σ

namespace Edit

/-! ## 1. Edits and operations -/

variable {ε ε' σ τ α : Type} {a b : Edit ε σ Unit} {f : σ → Except ε σ} {g g' : σ → σ}

/-- The edit always gets to its end, and has then done what `g` does. -/
def Assigns (a : Edit ε σ Unit) (g : σ → σ) : Prop := ∀ s, a.run s = .ok () (g s)

/-- How an edit of `s` ends that either comes to its end or assigns nothing. -/
def outcome (s : σ) : Except ε σ → EStateM.Result ε σ Unit
  | .ok t => .ok () t
  | .error e => .error e s

/-- The edit does what `f` does.  If that is an error, nothing was assigned. -/
def Makes (a : Edit ε σ Unit) (f : σ → Except ε σ) : Prop := ∀ s, a.run s = outcome s (f s)

/-- An edit that makes something breaks off with its state as it was. -/
theorem Makes.eq_of_error (ha : a.Makes f) {e : ε} {s t : σ} (h : a.run s = .error e t) :
    t = s := by
  rw [ha s] at h
  cases hf : f s with
  | ok u => rw [hf] at h; cases h
  | error e' => rw [hf] at h; cases h; rfl

theorem Assigns.makes (ha : a.Assigns g) : a.Makes fun s => .ok (g s) := ha

theorem assigns_modify (g : σ → σ) : Assigns (ε := ε) (modify g) g := fun _ => rfl

theorem Assigns.andThen (ha : a.Assigns g) (hb : b.Assigns g') :
    Assigns (do a; b) fun s => g' (g s) := by
  intro s
  rw [EStateM.run_bind, ha s]
  exact hb (g s)

theorem assigns_forM {k : α → Edit ε σ Unit} {h : σ → α → σ} (hk : ∀ c, (k c).Assigns (h · c)) :
    ∀ l : List α, Assigns (l.forM k) fun s => l.foldl h s
  | [] => fun _ => rfl
  | c :: rest => (hk c).andThen (assigns_forM hk rest)

theorem Makes.andThen (ha : a.Makes f) (hb : b.Assigns g) :
    Makes (do a; b) fun s => (f s).map g := by
  intro s
  rw [EStateM.run_bind, ha s]
  show _ = outcome s ((f s).map g)
  cases f s with
  | ok t => exact hb t
  | error e => rfl

/-- An edit that only looks at the state, and either breaks off or lets another one follow. -/
theorem Makes.checked {check : σ → Option ε} (ha : a.Makes fun s => (check s).elim (.ok s) .error)
    (hb : b.Makes f) : Makes (do a; b) fun s => (check s).elim (f s) .error := by
  intro s
  have hs := ha s
  rw [EStateM.run_bind]
  simp only at hs ⊢
  rw [hs]
  cases check s with
  | some e => rfl
  | none => exact hb s

/-- An edit of a part of something larger.  Its errors are reported as `wrap` says. -/
def within (part : τ → σ) (put : σ → τ → τ) (wrap : ε → ε') (a : Edit ε σ Unit) :
    Edit ε' τ Unit := fun x =>
  match a.run (part x) with
  | .ok _ s => .ok () (put s x)
  | .error e s => .error (wrap e) (put s x)

theorem Assigns.within (part : τ → σ) (put : σ → τ → τ) (wrap : ε → ε') (ha : a.Assigns g) :
    (a.within part put wrap).Assigns fun x => put (g (part x)) x := by
  intro x
  have hx := ha (part x)
  simp only [Edit.within, EStateM.run] at hx ⊢
  rw [hx]

theorem Makes.within (part : τ → σ) (put : σ → τ → τ) (wrap : ε → ε') (ha : a.Makes f)
    (hput : ∀ x, put (part x) x = x) :
    (a.within part put wrap).Makes fun x => ((f (part x)).mapError wrap).map (put · x) := by
  intro x
  have hx := ha (part x)
  simp only [Edit.within, EStateM.run] at hx ⊢
  rw [hx]
  cases f (part x) with
  | ok s => rfl
  | error e => exact congrArg _ (hput x)

/-! ## 2. The tables -/

/-- Breaks off if a submission brings an id that is taken. -/
def scan : List JobId → List Submission → Edit StoreError Tables Unit
  | _, [] => pure ()
  | taken, s :: rest =>
    if s.id ∈ taken then throw (.duplicate s.id) else scan (s.id :: taken) rest

/-- Puts a submission into the three tables, one table after the other. -/
def push (s : Submission) : Edit StoreError Tables Unit := do
  modify fun t => { t with jobs := t.jobs ++ [s.job] }
  modify fun t => { t with guards := t.guards ++ s.guards }
  modify fun t => { t with edges := t.edges ++ s.edges }

/-- Adds a batch: first every id is looked at, and only then anything is put in. -/
def add (batch : List Submission) : Edit StoreError Tables Unit := do
  scan ((← get).jobs.map Job.id) batch
  batch.forM push

/-- Changes the record with this id. -/
def update (id : JobId) (f : Job → Job) : Edit StoreError Tables Unit := do
  if (← get).contains id then
    modify fun t => { t with jobs := modifyFirst (·.id == id) f t.jobs }
  else throw (.notFound id)

/-- Takes jobs and rows out of the three tables, one table after the other. -/
def drop (ids : List JobId) : Edit StoreError Tables Unit := do
  modify fun t => { t with jobs := t.jobs.filter fun j => !ids.contains j.id }
  modify fun t => { t with guards := t.guards.filter fun g => !ids.contains g.job }
  modify fun t =>
    { t with edges := t.edges.filter fun e => !ids.contains e.job && !ids.contains e.waitsOn }

theorem scan_makes (batch : List Submission) : ∀ taken : List JobId,
    (scan taken batch).Makes fun t =>
      match firstDuplicate taken batch with
      | some id => .error (.duplicate id)
      | none => .ok t := by
  induction batch with
  | nil => exact fun _ _ => rfl
  | cons s rest ih =>
    intro taken t
    by_cases hs : s.id ∈ taken
    · simp only [scan, firstDuplicate, if_pos hs]
      rfl
    · simp only [scan, firstDuplicate, if_neg hs]
      exact ih (s.id :: taken) t

theorem push_assigns (s : Submission) : (push s).Assigns fun t => t.append [s] := by
  intro t
  simp only [Tables.append, List.map_cons, List.map_nil, List.flatMap_cons, List.flatMap_nil,
    List.append_nil]
  rfl

theorem foldl_append : ∀ (batch : List Submission) (t : Tables),
    batch.foldl (fun t s => t.append [s]) t = t.append batch
  | [], t => by simp [Tables.append]
  | s :: rest, t => by
    rw [List.foldl_cons, foldl_append rest]
    simp [Tables.append]

theorem add_makes (batch : List Submission) : (add batch).Makes (Tables.insert batch) := by
  intro t
  have hscan := (scan_makes batch (t.jobs.map Job.id)).andThen (assigns_forM push_assigns batch) t
  simp only [add, EStateM.run_bind, EStateM.run_get] at hscan ⊢
  rw [hscan, Tables.insert]
  cases firstDuplicate (t.jobs.map Job.id) batch with
  | some id => rfl
  | none =>
    show outcome t (.ok (batch.foldl (fun t s => t.append [s]) t)) = _
    rw [foldl_append]

theorem update_makes (id : JobId) (f : Job → Job) :
    (update id f).Makes fun t => t.modify id f := by
  intro t
  simp only [update, EStateM.run_bind, EStateM.run_get, Tables.modify]
  cases t.contains id with
  | true => rfl
  | false => rfl

theorem drop_assigns (ids : List JobId) : (drop ids).Assigns (Tables.delete ids) := fun _ => rfl

/-! ## 3. The store -/

/-- Breaks off if writes are switched off, and otherwise edits what is behind the switch. -/
def behindSwitch (write : WriteCall) (a : Edit StoreError Tables Unit) :
    Edit StoreError (Switched Tables) Unit := do
  if (← get).refusing then throw (.refused write)
  else a.within Switched.inner (fun t s => { s with inner := t }) id

theorem behindSwitch_makes (write : WriteCall) {a : Edit StoreError Tables Unit}
    {f : Tables → Except StoreError Tables} (ha : a.Makes f) :
    (behindSwitch write a).Makes (·.guarded write f) := by
  intro s
  simp only [behindSwitch, EStateM.run_bind, EStateM.run_get]
  cases hr : s.refusing with
  | true =>
    rw [Switched.guarded_of_refusing hr]
    rfl
  | false =>
    rw [Switched.guarded_of_not_refusing hr]
    have hin := ha.within Switched.inner (fun t s => { s with inner := t }) id fun _ => rfl
    refine (hin s).trans ?_
    show outcome s (((f s.inner).mapError id).map _) = _
    cases f s.inner with
    | ok t => rfl
    | error e => rfl

/-! ## 4. The index -/

/-- Puts a submission into the roster: its rows first, the job last. -/
def enter (s : Submission) : Edit IndexError Roster Unit := do
  modify fun r => { r with guards := r.guards.file s.id s.guards }
  modify fun r => { r with edges := r.edges.file s.id s.edges }
  modify fun r => { r with jobs := r.jobs ++ [s.job] }

/-- Takes jobs out of the roster, then what is filed under them, then what waits on them. -/
def remove (ids : List JobId) : Edit IndexError Roster Unit := do
  modify fun r => { r with jobs := r.jobs.filter fun j => !ids.contains j.id }
  modify fun r => { r with guards := r.guards.dropAll ids }
  modify fun r => { r with edges := r.edges.dropAll ids }
  modify fun r => { r with edges := r.edges.keep fun e => !ids.contains e.waitsOn }

/-- Writes to the store, and then lets the roster follow. -/
def writeThrough (write : WriteCall) (a : Edit StoreError Tables Unit)
    (b : Edit IndexError Roster Unit) : Edit IndexError MemoryIndex Unit := do
  (behindSwitch write a).within Index.store (fun s x => { x with store := s }) .store
  b.within Index.roster (fun r x => { x with roster := r }) id

/-- A change in place. -/
def change : Change → Edit IndexError MemoryIndex Unit
  | .insert batch => do
    match (← get).roster.cycle? batch with
    | some id => throw (.cycle id)
    | none => writeThrough .insert (add batch) (batch.forM enter)
  | .setRunning id running => do
    match (← get).roster.get? id with
    | none => throw (.notFound id)
    | some j =>
      writeThrough .setRunning (update id fun j => { j with running })
        (modify (·.replace { j with running }))
  | .reschedule id running attempt due payload => do
    match (← get).roster.get? id with
    | none => throw (.notFound id)
    | some j =>
      writeThrough .reschedule (update id (·.rescheduled running attempt due payload))
        (modify (·.replace (j.rescheduled running attempt due payload)))
  | .clearRunning =>
    writeThrough .clearRunning (modify Tables.clearRunning) (modify Roster.clearRunning)
  | .amend jobs => do
    let r := (← get).roster
    let known := jobs.filter fun j => r.contains j.id
    writeThrough .amend (known.forM fun j => modify (·.replace j))
      (known.forM fun j => modify (·.replace j))
  | .delete ids => writeThrough .delete (drop ids) (remove ids)
  | .reopen d => do
    match Index.open (← get).store d with
    | .ok y => set y
    | .error e => throw e
  | .refuse refusing => modify fun x => { x with store := x.store.refuse refusing }

theorem writeThrough_makes {write : WriteCall} {a : Edit StoreError Tables Unit}
    {f : Tables → Except StoreError Tables} {b : Edit IndexError Roster Unit} {g : Roster → Roster}
    (ha : a.Makes f) (hb : b.Assigns g) :
    (writeThrough write a b).Makes fun x => x.writeThrough (·.guarded write f) g := by
  intro x
  have hstore := (behindSwitch_makes write ha).within Index.store
    (fun s (x : MemoryIndex) => { x with store := s }) IndexError.store fun _ => rfl
  have hroster := hb.within Index.roster (fun r (x : MemoryIndex) => { x with roster := r }) id
  refine (hstore.andThen hroster x).trans ?_
  simp only [Index.writeThrough]
  cases x.store.guarded write f with
  | ok s => rfl
  | error e => rfl

/-- **A change in place does what its operation says, and is broken off only before anything is
assigned.** -/
theorem change_makes (c : Change) : (change c).Makes (·.perform c) := by
  intro x
  cases c with
  | insert batch =>
    simp only [change, EStateM.run_bind, EStateM.run_get, Index.perform, Index.insert]
    cases x.roster.cycle? batch with
    | some id => rfl
    | none => exact writeThrough_makes (add_makes batch) (assigns_forM (fun _ _ => rfl) batch) x
  | setRunning id running =>
    simp only [change, EStateM.run_bind, EStateM.run_get, Index.perform, Index.setRunning]
    cases x.roster.get? id with
    | none => rfl
    | some j => exact writeThrough_makes (update_makes id _) (assigns_modify _) x
  | reschedule id running attempt due payload =>
    simp only [change, EStateM.run_bind, EStateM.run_get, Index.perform, Index.reschedule]
    cases x.roster.get? id with
    | none => rfl
    | some j => exact writeThrough_makes (update_makes id _) (assigns_modify _) x
  | clearRunning => exact writeThrough_makes (assigns_modify _).makes (assigns_modify _) x
  | amend jobs =>
    simp only [change, EStateM.run_bind, EStateM.run_get, Index.perform, Index.amend]
    exact writeThrough_makes (assigns_forM (fun _ => assigns_modify _) _).makes
      (assigns_forM (fun _ => assigns_modify _) _) x
  | delete ids => exact writeThrough_makes (drop_assigns ids).makes (fun _ => rfl) x
  | reopen d =>
    simp only [change, EStateM.run_bind, EStateM.run_get, Index.perform]
    cases Index.open x.store d with
    | ok y => rfl
    | error e => rfl
  | refuse refusing => rfl

end Edit

end Backlog
