/-
# Records decode to themselves

Jobs, rows, policies and choices are written as JSON and read again.  Of each type two things are
proved: its reader undoes its writer (`ofJson?_toJson`), and what it writes is `printable`, so that
the text is read back as well.

Only policies hold floats.  The text of a float is scaled in float arithmetic when it is read, so
that it is read back is an assumption on each float of a policy.  That a float is finite is one only
where the policy was not itself read from a text (`Backoff.isFinite_of_ofJson?`).

* `JsonForm`, `JsonForm.Lawful`: a type of values with its JSON form, and what is asked of it;
* `RecordKind`, `RecordKind.lawful`: the nine forms;
* `RecordKind.recoded`: **values decode from their texts, and the texts of decoded values recode.**
-/
import Backlog.Config.Codec
import Backlog.Job.Codec
import Backlog.Proofs.Json.Ranged
import Backlog.Proofs.Json.Records
import Backlog.Scripted

namespace Backlog

open Members (required_bind optional_bind)
open Json (object_bind keyed_bind tagged?_bind ReadsBack Printable Ranged Flat printable_int32
  printable_int64 printable_word64)

/-! ## 1. Ids, rows and jobs -/

theorem JobId.ofJson?_toJson (id : JobId) : JobId.ofJson? id.toJson = some id := rfl

theorem JobId.printable (id : JobId) : Printable id.toJson := .string id.text

theorem Guard.ofJson?_toJson (g : Guard) : Guard.ofJson? g.toJson = some g := by
  refine object_bind rfl (by decide) ?_
  refine required_bind rfl g.job.ofJson?_toJson ?_
  exact required_bind (f := Json.text?) (a := g.name) rfl rfl rfl

theorem Guard.printable (g : Guard) : Printable g.toJson := by
  refine .object ?_
  simp only [List.forall_mem_cons]
  exact ⟨g.job.printable, .string g.name, by simp⟩

theorem Edge.ofJson?_toJson (e : Edge) : Edge.ofJson? e.toJson = some e := by
  refine object_bind rfl (by decide) ?_
  refine required_bind rfl e.job.ofJson?_toJson ?_
  exact required_bind rfl e.waitsOn.ofJson?_toJson rfl

theorem Edge.printable (e : Edge) : Printable e.toJson := by
  refine .object ?_
  simp only [List.forall_mem_cons]
  exact ⟨e.job.printable, e.waitsOn.printable, by simp⟩

theorem payloadOfJson?_payloadToJson (payload : ByteArray) :
    payloadOfJson? (payloadToJson payload) = some payload := by
  rw [payloadOfJson?, payloadToJson, Json.list?_map fun b _ => Json.byte?_toNat b]
  simp

theorem printable_payloadToJson (payload : ByteArray) : Printable (payloadToJson payload) :=
  Json.printable_array_map fun b _ =>
    Json.printable_nat (lt_of_lt_of_le b.toNat_lt (by decide))

theorem Job.ofJson?_toJson (j : Job) : Job.ofJson? j.toJson = some j := by
  have hqueue : (Json.ofOption .string j.queue).nullable? Json.text? = some j.queue :=
    Json.nullable?_ofOption (g := .string) (fun _ => rfl) (by simp) j.queue
  refine object_bind rfl (by decide) ?_
  refine required_bind rfl j.id.ofJson?_toJson ?_
  refine required_bind (f := Json.text?) (a := j.factory) rfl rfl ?_
  refine optional_bind rfl hqueue ?_
  refine required_bind rfl (Json.int64?_toInt j.created) ?_
  refine required_bind rfl (Json.int64?_toInt j.due) ?_
  refine required_bind rfl (Json.int32?_toInt j.attempt) ?_
  refine required_bind rfl (Json.int32?_toInt j.maxAttempts) ?_
  refine required_bind rfl (Json.int64?_toInt j.maxBackoff) ?_
  refine required_bind rfl (Json.int32?_toInt j.maxInstances) ?_
  refine required_bind rfl (Json.int64?_toInt j.lifespan) ?_
  refine required_bind rfl (payloadOfJson?_payloadToJson j.payload) ?_
  exact required_bind (f := Json.bool?) (a := j.running) rfl rfl rfl

theorem Job.printable (j : Job) : Printable j.toJson := by
  refine .object ?_
  simp only [List.forall_mem_cons]
  exact ⟨j.id.printable, .string _, Json.printable_ofOption .string j.queue, printable_int64 _,
    printable_int64 _, printable_int32 _, printable_int32 _, printable_int64 _, printable_int32 _,
    printable_int64 _, printable_payloadToJson _, .bool _, by simp⟩

theorem Submission.ofJson?_toJson (s : Submission) : Submission.ofJson? s.toJson = some s := by
  refine object_bind rfl (by decide) ?_
  refine required_bind rfl s.job.ofJson?_toJson ?_
  refine required_bind rfl (Json.list?_map fun g _ => g.ofJson?_toJson) ?_
  exact required_bind rfl (Json.list?_map fun e _ => e.ofJson?_toJson) rfl

theorem Submission.printable (s : Submission) : Printable s.toJson := by
  refine .object ?_
  simp only [List.forall_mem_cons]
  exact ⟨s.job.printable, Json.printable_array_map fun g _ => g.printable,
    Json.printable_array_map fun e _ => e.printable, by simp⟩

/-! ## 2. Choices -/

theorem Discipline.ofJson?_toJson (d : Discipline) : Discipline.ofJson? d.toJson = some d := by
  cases d <;> decide

theorem Discipline.printable (d : Discipline) : Printable d.toJson := .string d.name

theorem StoreChoice.ofJson?_toJson {level : Nat} (hlevel : level < Json.depthLimit)
    (s : StoreChoice) : StoreChoice.ofJson? level s.toJson = some s := by
  cases s with
  | memory => exact tagged?_bind hlevel [] (by simp) (by simp) rfl
  | file path =>
    refine tagged?_bind hlevel [("path", .string path)] (by simp [Flat]) (by simp) ?_
    refine (if_neg (by decide)).trans ((if_pos rfl).trans ?_)
    refine keyed_bind rfl (by decide) ?_
    rfl

theorem StoreChoice.printable (s : StoreChoice) : Printable s.toJson := by
  cases s with
  | memory => exact .object (by simp [Json.Printable.string])
  | file path => exact .object (by simp [Json.Printable.string])

/-! ## 3. Steps and policies -/

theorem Step.ofJson?_toJson {level : Nat} (hlevel : level < Json.depthLimit)
    (s : Step) : Step.ofJson? level s.toJson = some s := by
  cases s with
  | succeedAfter millis =>
    refine tagged?_bind hlevel [("millis", .int millis.toNat)] (by simp [Flat])
      (by simp) ?_
    refine (if_pos rfl).trans (keyed_bind rfl (by decide) ?_)
    exact required_bind rfl (Json.word64?_toNat millis) rfl
  | succeed | transient | permanent | defect | panic =>
    exact tagged?_bind hlevel [] (by simp) (by simp) rfl

theorem Step.printable (s : Step) : Printable s.toJson := by
  cases s with
  | succeedAfter millis =>
    exact .object (by simp [Json.Printable.string, printable_word64])
  | succeed | transient | permanent | defect | panic =>
    exact .object (by simp [Json.Printable.string])

namespace Backoff

/-- The floats of a policy. -/
def floats : Backoff → List Float
  | fixed _ => []
  | exponential _ multiplier _ jitter => [multiplier, jitter]

theorem ofJson?_toJson {level : Nat} (hlevel : level < Json.depthLimit) {p : Backoff}
    (hfinite : ∀ x ∈ p.floats, x.isFinite = true) : Backoff.ofJson? level p.toJson = some p := by
  cases p with
  | fixed delay =>
    refine tagged?_bind hlevel [("delay", .int delay.toNat)] (by simp [Flat])
      (by simp) ?_
    refine (if_pos rfl).trans (keyed_bind rfl (by decide) ?_)
    exact required_bind rfl (Json.word64?_toNat delay) rfl
  | exponential initial multiplier max jitter =>
    simp only [floats, List.forall_mem_cons] at hfinite
    obtain ⟨hmultiplier, hjitter, -⟩ := hfinite
    rw [toJson, Json.ofFloat, if_pos hmultiplier, Json.ofFloat, if_pos hjitter]
    refine tagged?_bind hlevel [("initial", .int initial.toNat),
      ("multiplier", .float multiplier), ("max", .int max.toNat), ("jitter", .float jitter)]
      (by simp [Flat]) (by simp) ?_
    refine (if_neg (by decide)).trans ((if_pos rfl).trans (keyed_bind rfl (by decide) ?_))
    refine required_bind rfl (Json.word64?_toNat initial) ?_
    refine required_bind (f := Json.float?) (a := multiplier) rfl rfl ?_
    refine required_bind rfl (Json.word64?_toNat max) ?_
    exact required_bind (f := Json.float?) (a := jitter) rfl rfl rfl

theorem printable {p : Backoff} (hfinite : ∀ x ∈ p.floats, x.isFinite = true)
    (hback : ∀ x ∈ p.floats, x.isFinite = true → ReadsBack (.float x)) : Printable p.toJson := by
  cases p with
  | fixed delay => exact .object (by simp [Json.Printable.string, printable_word64])
  | exponential initial multiplier max jitter =>
    simp only [floats, List.forall_mem_cons] at hfinite hback
    obtain ⟨hmultiplier, hjitter, -⟩ := hfinite
    have hm : Printable (.float multiplier) := .float (hback.1 hmultiplier)
    have hj : Printable (.float jitter) := .float (hback.2.1 hjitter)
    rw [toJson, Json.ofFloat, if_pos hmultiplier, Json.ofFloat, if_pos hjitter]
    exact .object (by simp [Json.Printable.string, printable_word64, hm, hj])

/-- A policy that is read has finite floats: what is beyond the range of floats is not read. -/
theorem isFinite_of_ofJson? {level : Nat} {j : Json} {p : Backoff} (hj : Ranged j)
    (h : Backoff.ofJson? level j = some p) : ∀ x ∈ p.floats, x.isFinite = true := by
  obtain ⟨⟨kind, fields⟩, htagged, h⟩ := Option.bind_eq_some_iff.mp h
  have hvalues := hj.of_tagged? htagged
  change ofFields? kind fields = some p at h
  rw [ofFields?] at h
  split at h
  · obtain ⟨m, -, h⟩ := Option.bind_eq_some_iff.mp h
    obtain ⟨delay, -, h⟩ := Option.bind_eq_some_iff.mp h
    cases h
    exact nofun
  · split at h
    · obtain ⟨m, hm, h⟩ := Option.bind_eq_some_iff.mp h
      have hentries : ∀ e ∈ m.entries, Ranged e.2 :=
        fun e he => hvalues _ (Fields.mem_values_of_members? hm e he)
      obtain ⟨initial, -, h⟩ := Option.bind_eq_some_iff.mp h
      obtain ⟨multiplier, hmultiplier, h⟩ := Option.bind_eq_some_iff.mp h
      obtain ⟨max, -, h⟩ := Option.bind_eq_some_iff.mp h
      obtain ⟨jitter, hjitter, h⟩ := Option.bind_eq_some_iff.mp h
      cases h
      simp only [floats, List.forall_mem_cons]
      exact ⟨Members.isFinite_of_required hentries hmultiplier,
        Members.isFinite_of_required hentries hjitter, nofun⟩
    · cases h

end Backoff

/-! ## 4. Texts -/

/-- A type of values with its JSON form: how a value is written, how it is read, and which floats
are in it. -/
structure JsonForm where
  Value : Type
  write : Value → Json
  read : Json → Option Value
  floats : Value → List Float := fun _ => []

namespace JsonForm

variable (F : JsonForm)

/-- The text of a value. -/
def encode (v : F.Value) : String := (F.write v).compact

/-- The value of a text. -/
def decode (text : String) : Option F.Value := (Json.ofText? text).bind F.read

/-- The text of the value of a text. -/
def recode (text : String) : Option String := (F.decode text).map F.encode

/-- What is asked of a JSON form.  Floats may have to be finite, and their texts to be read back. -/
structure Lawful : Prop where
  read_write : ∀ v : F.Value, (∀ x ∈ F.floats v, x.isFinite = true) → F.read (F.write v) = some v
  printable : ∀ v : F.Value, (∀ x ∈ F.floats v, x.isFinite = true) →
    (∀ x ∈ F.floats v, x.isFinite = true → ReadsBack (.float x)) → Printable (F.write v)
  isFinite_of_read : ∀ {j : Json} {v : F.Value}, Ranged j → F.read j = some v →
    ∀ x ∈ F.floats v, x.isFinite = true

variable {F}

theorem Lawful.decode_encode (h : F.Lawful) {v : F.Value}
    (hfinite : ∀ x ∈ F.floats v, x.isFinite = true)
    (hback : ∀ x ∈ F.floats v, x.isFinite = true → ReadsBack (.float x)) :
    F.decode (F.encode v) = some v := by
  have hread : Json.ofText? (F.encode v) = some (F.write v) :=
    (h.printable v hfinite hback).readsBack
  rw [decode, hread, Option.bind_some, h.read_write v hfinite]

theorem Lawful.isFinite_of_decode (h : F.Lawful) {text : String} {v : F.Value}
    (hdecode : F.decode text = some v) : ∀ x ∈ F.floats v, x.isFinite = true := by
  obtain ⟨j, hj, hv⟩ := Option.bind_eq_some_iff.mp hdecode
  exact h.isFinite_of_read (Json.ranged_of_ofText? hj) hv

end JsonForm

/-- The types of values with a JSON form of their own. -/
inductive RecordKind
  | job | submission | guard | edge | id | step | policy | store | discipline
deriving DecidableEq

/-- The form of each type.  What is read from a text stands inside no array or object. -/
def RecordKind.format : RecordKind → JsonForm
  | job => { Value := Job, write := Job.toJson, read := Job.ofJson? }
  | submission => { Value := Submission, write := Submission.toJson, read := Submission.ofJson? }
  | guard => { Value := Guard, write := Guard.toJson, read := Guard.ofJson? }
  | edge => { Value := Edge, write := Edge.toJson, read := Edge.ofJson? }
  | id => { Value := JobId, write := JobId.toJson, read := JobId.ofJson? }
  | step => { Value := Step, write := Step.toJson, read := Step.ofJson? 0 }
  | policy =>
    { Value := Backoff, write := Backoff.toJson, read := Backoff.ofJson? 0,
      floats := Backoff.floats }
  | store => { Value := StoreChoice, write := StoreChoice.toJson, read := StoreChoice.ofJson? 0 }
  | discipline => { Value := Discipline, write := Discipline.toJson, read := Discipline.ofJson? }

theorem RecordKind.lawful (k : RecordKind) : k.format.Lawful := by
  have htop : 0 < Json.depthLimit := by decide
  cases k with
  | job => exact ⟨fun j _ => j.ofJson?_toJson, fun j _ _ => j.printable, fun _ _ => nofun⟩
  | submission => exact ⟨fun s _ => s.ofJson?_toJson, fun s _ _ => s.printable, fun _ _ => nofun⟩
  | guard => exact ⟨fun g _ => g.ofJson?_toJson, fun g _ _ => g.printable, fun _ _ => nofun⟩
  | edge => exact ⟨fun e _ => e.ofJson?_toJson, fun e _ _ => e.printable, fun _ _ => nofun⟩
  | id => exact ⟨fun i _ => i.ofJson?_toJson, fun i _ _ => i.printable, fun _ _ => nofun⟩
  | step => exact ⟨fun s _ => s.ofJson?_toJson htop, fun s _ _ => s.printable, fun _ _ => nofun⟩
  | policy =>
    exact ⟨fun p => Backoff.ofJson?_toJson htop, fun p => Backoff.printable,
      Backoff.isFinite_of_ofJson?⟩
  | store => exact ⟨fun s _ => s.ofJson?_toJson htop, fun s _ _ => s.printable, fun _ _ => nofun⟩
  | discipline => exact ⟨fun d _ => d.ofJson?_toJson, fun d _ _ => d.printable, fun _ _ => nofun⟩

/-- **Records decode to themselves.**  A value whose floats are finite is decoded from its text, if
the texts of these floats are read back; and under this condition alone, whatever is decoded from a
text has a text that recodes to itself. -/
theorem RecordKind.recoded (k : RecordKind) :
    (∀ v : k.format.Value, (∀ x ∈ k.format.floats v, x.isFinite = true) →
      (∀ x ∈ k.format.floats v, x.isFinite = true → ReadsBack (.float x)) →
      k.format.decode (k.format.encode v) = some v) ∧
    ∀ (text : String) (v : k.format.Value), k.format.decode text = some v →
      (∀ x ∈ k.format.floats v, x.isFinite = true → ReadsBack (.float x)) →
      k.format.recode (k.format.encode v) = some (k.format.encode v) := by
  refine ⟨fun v => k.lawful.decode_encode, fun text v hdecode hback => ?_⟩
  have hfinite := k.lawful.isFinite_of_decode hdecode
  rw [JsonForm.recode, k.lawful.decode_encode hfinite hback, Option.map_some]

/-- A float with one place after the point is read back if its division by ten is exact. -/
theorem readsBack_tenths {x : Float} (text : String) (tenths : Nat)
    (htext : (Json.float x).compact = text)
    (hread : Json.ofText? text = some (.float (Json.divideByTens (Float.ofNat tenths) 1)))
    (hexact : Float.ofNat tenths / Json.tenTo 1 = x) : ReadsBack (.float x) := by
  rw [ReadsBack, htext, hread, Json.divideByTens, if_pos (by decide), hexact]

/-- The standard policy, from a text that writes its floats as integers. -/
theorem RecordKind.recoded_standard :
    RecordKind.policy.format.decode (RecordKind.policy.format.encode Backoff.standard)
        = some Backoff.standard ∧
      RecordKind.policy.format.recode (RecordKind.policy.format.encode Backoff.standard)
        = some (RecordKind.policy.format.encode Backoff.standard) := by
  have hfinite : ∀ x ∈ RecordKind.policy.format.floats Backoff.standard, x.isFinite = true := by
    decide
  have hback : ∀ x ∈ RecordKind.policy.format.floats Backoff.standard,
      x.isFinite = true → ReadsBack (.float x) := by
    have htwo : ReadsBack (.float 2.0) :=
      readsBack_tenths "2.0" 20 (by decide) rfl (by decide)
    have hzero : ReadsBack (.float 0.0) :=
      readsBack_tenths "0.0" 0 (by decide) rfl (by decide)
    exact List.forall_mem_cons.mpr ⟨fun _ => htwo, List.forall_mem_singleton.mpr fun _ => hzero⟩
  have hdecode : RecordKind.policy.format.decode
      "[\"exponential\",1000,2,60000,0]" = some Backoff.standard := rfl
  exact ⟨(RecordKind.recoded .policy).1 _ hfinite hback,
    (RecordKind.recoded .policy).2 _ _ hdecode hback⟩

end Backlog
