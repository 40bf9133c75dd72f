import TypedMessage.Proofs.Dependencies
import TypedMessage.Proofs.Layout

/- What a session still knows of its steps. A session that took any steps, refused ones
   among them, answers every question like one that is opened anew from the last schema
   that was accepted, the last version and the last width setting
   (`Session.ask_after_eq_reopened`). Nothing else of the steps is left. -/
namespace TypedMessage

/-! ## Schemas that are read -/

namespace Schema
variable {d e : Schema} {ms : List (String × Json)}

theorem contains_addEntries (h : addEntries d ms = .ok e) (name : String) :
    e.contains name = true ↔ d.contains name = true ∨ name ∈ ms.map (·.1) := by
  induction ms generalizing d with
  | nil =>
    cases h
    simp
  | cons m ms ih =>
    rw [addEntries] at h
    split at h
    case h_1 fields _ =>
      rw [ih h, List.map_cons, List.mem_cons]
      by_cases hm : m.1 = name
      · simp [Dict.contains, hm]
      · simp [Dict.contains, hm, Ne.symm hm]
    case h_2 => cases h

/-- A schema that was read has the names of the object it was read from. -/
theorem contains_ofJson {v : Json} (h : ofJson v = .ok d) (name : String) :
    d.contains name = true ↔ ∃ ms, v = .object ms ∧ name ∈ ms.map (·.1) := by
  cases v with
  | object ms => simpa [Dict.contains] using contains_addEntries h name
  | _ => cases h

/-- One entry that is no list of fields, wherever it stands, is enough to be refused. -/
theorem addEntries_fails {name : String} {v : Json} {fault : Json.Fault} (hm : (name, v) ∈ ms)
    (hv : Field.listOfJson v = .error fault) : ∃ refused, addEntries d ms = .error refused := by
  induction ms generalizing d with
  | nil => cases hm
  | cons m ms ih =>
    rw [addEntries]
    rcases List.mem_cons.1 hm with rfl | hm
    · exact ⟨_, by rw [hv]⟩
    · split
      case h_1 => exact ih hm
      case h_2 => exact ⟨_, rfl⟩

end Schema

/-! ## Sessions after steps -/

namespace Session

/-- The session after steps taken one after the other. -/
def after (h : Hash) (s : Session) (steps : List Step) : Session :=
  steps.foldl (fun s c => (s.step h c).1) s

namespace Step

/-- The value that a step changes the schema to, if it is a schema. -/
def schema? : Step → Option Json
  | .change (.schema v) => if (Schema.ofJson v).isOk then some v else none
  | _ => none

/-- The version that a step sets. -/
def version? : Step → Option Version
  | .change (.version v) => some v
  | _ => none

/-- The width setting that a step sets. -/
def enforceWidth? : Step → Option Bool
  | .change (.enforceWidth on) => some on
  | _ => none

end Step

/-- What the last of the steps that set something set. -/
def lastSet {α : Type} (set? : Step → Option α) (steps : List Step) : Option α :=
  (steps.filterMap set?).getLast?

/-- A session opened anew with what was set last. What was never set is as in `s`. -/
def reopened (s : Session) (steps : List Step) : Except Fault Session := do
  let version := (lastSet Step.version? steps).getD s.version
  let fresh ← match lastSet Step.schema? steps with
    | some v => start v version
    | none => .ok { schema := s.schema, version }
  return { fresh with enforceWidth := (lastSet Step.enforceWidth? steps).getD s.enforceWidth }

section Steps
variable {h : Hash} {s : Session} {steps : List Step} {c : Step}

theorem after_concat : after h s (steps ++ [c]) = ((after h s steps).step h c).1 := by
  simp [after]

theorem lastSet_concat {α : Type} (set? : Step → Option α) (steps : List Step) (c : Step) :
    lastSet set? (steps ++ [c]) = (set? c).or (lastSet set? steps) := by
  rw [lastSet, lastSet, List.filterMap_append]
  cases hc : set? c <;> simp [hc]

/-! ### One step -/

/-- A step that is refused leaves the session as it was. -/
theorem step_of_error {fault : Fault} (hc : (s.step h c).2 = .error fault) :
    (s.step h c).1 = s := by
  cases c with
  | ask q => rfl
  | change c =>
    rw [step] at hc ⊢
    cases hs : s.change c with
    | error e => rfl
    | ok s' =>
      rw [hs] at hc
      cases hc

theorem version_step : (s.step h c).1.version = c.version?.getD s.version := by
  match c with
  | .ask q => rfl
  | .change (.version v) => rfl
  | .change (.enforceWidth on) => rfl
  | .change (.schema v) =>
    rw [step, change]
    cases Schema.ofJson v <;> rfl

theorem enforceWidth_step :
    (s.step h c).1.enforceWidth = c.enforceWidth?.getD s.enforceWidth := by
  match c with
  | .ask q => rfl
  | .change (.version v) => rfl
  | .change (.enforceWidth on) => rfl
  | .change (.schema v) =>
    rw [step, change]
    cases Schema.ofJson v <;> rfl

theorem step_schema_ok {v : Json} {d : Schema} (hv : Schema.ofJson v = .ok d) :
    (s.step h (.change (.schema v))).1 = { s with schema := d } := by
  rw [step, change, hv]
  rfl

theorem step_schema_error {v : Json} {fault : SchemaFault} (hv : Schema.ofJson v = .error fault) :
    s.step h (.change (.schema v)) = (s, .error (.schema fault)) := by
  rw [step, change, hv]
  rfl

/-! ### Many steps -/

/-- What a step replaces or leaves, many steps leave as the last of them set it. -/
theorem get_after {α : Type} {get : Session → α} {set? : Step → Option α}
    (one : ∀ s c, get (s.step h c).1 = (set? c).getD (get s)) :
    get (after h s steps) = (lastSet set? steps).getD (get s) := by
  induction steps using List.reverseRecOn with
  | nil => rfl
  | append_singleton steps c ih =>
    rw [after_concat, one, lastSet_concat, ih]
    cases set? c <;> rfl

/-- The schema after steps is read from the last value that was accepted. -/
theorem schema_after (h : Hash) (s : Session) (steps : List Step) :
    match lastSet Step.schema? steps with
    | some v => Schema.ofJson v = .ok (after h s steps).schema
    | none => (after h s steps).schema = s.schema := by
  induction steps using List.reverseRecOn with
  | nil => rfl
  | append_singleton steps c ih =>
    rw [after_concat, lastSet_concat]
    match c with
    | .ask q => exact ih
    | .change (.version v) => exact ih
    | .change (.enforceWidth on) => exact ih
    | .change (.schema v) =>
      cases hv : Schema.ofJson v with
      | error fault =>
        rw [step_schema_error hv]
        simpa [Step.schema?, hv, Except.isOk, Except.toBool] using ih
      | ok d =>
        rw [step_schema_ok hv]
        simp [Step.schema?, hv, Except.isOk, Except.toBool]

theorem reopened_eq (h : Hash) (s : Session) (steps : List Step) :
    reopened s steps = .ok (after h s steps) := by
  have version : (after h s steps).version = (lastSet Step.version? steps).getD s.version :=
    get_after fun _ _ => version_step
  have enforceWidth : (after h s steps).enforceWidth =
      (lastSet Step.enforceWidth? steps).getD s.enforceWidth :=
    get_after fun _ _ => enforceWidth_step
  have schema := schema_after h s steps
  rw [reopened, ← version, ← enforceWidth]
  cases hv : lastSet Step.schema? steps with
  | none =>
    rw [hv] at schema
    simp [← schema, bind, Except.bind, pure, Except.pure]
  | some v =>
    rw [hv] at schema
    simp [start, schema, Except.mapError, Except.map, bind, Except.bind, pure, Except.pure]

/-- The answer to a step is that of the session after the steps before it. -/
theorem getElem?_run (h : Hash) (s : Session) (before later : List Step) (c : Step) :
    (run h s (before ++ c :: later))[before.length]? = some ((after h s before).step h c).2 := by
  induction before generalizing s with
  | nil => rfl
  | cons b before ih => simpa [run, after] using ih (s.step h b).1

end Steps

/-- Whatever steps a session took, it answers a question like one that is opened anew from
    the last schema that was accepted, the last version and the last width setting. A
    refused step changes nothing, a schema is refused for any one entry, and one that is
    accepted leaves no name of the schema before it. -/
theorem ask_after_eq_reopened (h : Hash) (s : Session) :
    (∀ before later q, ∃ fresh, reopened s before = .ok fresh ∧
      (run h s (before ++ .ask q :: later))[before.length]? = some (fresh.ask h q)) ∧
    (∀ c fault, (s.step h c).2 = .error fault → (s.step h c).1 = s) ∧
    (∀ ms name v fault, (name, v) ∈ ms → Field.listOfJson v = .error fault →
      ∃ refused, s.step h (.change (.schema (.object ms))) = (s, .error refused)) ∧
    ∀ v d, Schema.ofJson v = .ok d →
      (s.step h (.change (.schema v))).1 = { s with schema := d } ∧
      ∀ name, d.contains name = true ↔ ∃ ms, v = .object ms ∧ name ∈ ms.map (·.1) := by
  refine ⟨fun before later q => ?_, fun c fault => step_of_error, ?_, ?_⟩
  · exact ⟨after h s before, reopened_eq h s before, getElem?_run h s before later (.ask q)⟩
  · intro ms name v fault hm hv
    obtain ⟨refused, hms⟩ := Schema.addEntries_fails (d := Dict.empty) hm hv
    exact ⟨_, step_schema_error hms⟩
  · intro v d hv
    exact ⟨step_schema_ok hv, Schema.contains_ofJson hv⟩

end Session
end TypedMessage
