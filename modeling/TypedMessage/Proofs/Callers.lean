import TypedMessage.Proofs.Commands
import TypedMessage.Proofs.Queries

/- Two ways to an answer: a call of the service and a run of the program. For a digest each
   reads the text, opens a session and hashes, with its own settings, its own faults and its
   own layout of the answer; `hashed` compares the two stage by stage, and `hash_alike` what
   is seen of them from the outside. For a type string the service reads a query, and the
   program a request and the name of a type from its arguments (`encodeType_alike`). -/
namespace TypedMessage

/-! ## Settings -/

namespace Settings
variable (env : Environment) (s : Settings)

theorem version_adjustFlag (key : String) {set : Settings → Bool → Settings}
    (keeps : ∀ s on, (set s on).version = s.version) :
    (adjustFlag env key set s).1.version = s.version := by
  unfold adjustFlag
  split
  case h_1 => rfl
  case h_2 =>
    split
    case h_1 on _ => exact keeps s on
    case h_2 => rfl

theorem version_withVersion (v : Version) : (s.withVersion v).version = v := by
  unfold withVersion
  split
  case isTrue h => exact h.symm
  case isFalse => rfl

theorem version_withEnforceWidth (on : Bool) : (s.withEnforceWidth on).version = s.version := by
  unfold withEnforceWidth
  split <;> rfl

theorem version_adjustVersion :
    (adjustVersion env compatible).1.version =
      ((env versionVariable).bind Version.ofTag?).getD .default := by
  unfold adjustVersion
  cases env versionVariable with
  | none => rfl
  | some raw =>
    simp only [Option.bind_some]
    cases Version.ofTag? raw with
    | none => rfl
    | some v => exact version_withVersion compatible v

theorem version_withDebug (on : Bool) : (s.withDebug on).version = s.version := rfl

/-- The version that an environment names, and the default where it names none. -/
theorem version_ofEnvironment :
    (ofEnvironment env).1.version =
      ((env versionVariable).bind Version.ofTag?).getD .default := by
  rw [← version_adjustVersion]
  unfold ofEnvironment
  generalize adjustVersion env compatible = adjusted
  obtain ⟨s, w⟩ := adjusted
  simp only
  rw [version_adjustFlag env _ debugVariable version_withDebug,
    version_adjustFlag env s widthVariable version_withEnforceWidth]

end Settings

namespace CommandLine

/-! ## Faults and outcomes -/

/-- The fault of a request that is behind a fault of a run. -/
def RunFault.origin? : RunFault → Option Fault
  | request fault | hashing _ fault => some fault
  | _ => none

/-- The last cause that is printed of a fault. -/
def RunFault.lastCause (e : RunFault) : String := e.cause?.getD e.headline

/-- The run ended without a result and told this fault last. -/
def Outcome.Reports (o : Outcome) (e : RunFault) : Prop :=
  o.exitCode = 1 ∧ o.stdout = "" ∧ ∃ before, o.stderr = before ++ e.render ++ "\n"

theorem RunFault.lastCause_eq {e : RunFault} {fault : Fault} (h : e.origin? = some fault) :
    e.lastCause = fault.message := by
  cases e <;> cases h <;> rfl

theorem lines_singleton (l : String) : lines [l] = l ++ "\n" := by simp [lines, String.join]

theorem lines_append_singleton (ls : List String) (l : String) :
    lines (ls ++ [l]) = lines ls ++ l ++ "\n" := by
  simp [lines, String.append_assoc]

/-! ## The two computations -/

section Digest
variable {settings : Settings} {text : String}

/-- What comes of a text in a call of the service and in a run, by the stage that ends it. -/
inductive Hashed (settings : Settings) (text : String) :
    Except Failure DigestAnswer → Except RunFault (String × List Log.Entry) → Prop
  | unread {fault : Fault} (hparse : Request.parse text = .error fault) :
      Hashed settings text (.error (Service.unreadable fault.message)) (.error (.request fault))
  | unopened {r : Request} {fault : Fault} (hparse : Request.parse text = .ok r)
      (hsession : r.session settings = .error fault) :
      Hashed settings text (.error (.ofFault fault)) (.error (.request fault))
  | unhashed {r : Request} {s : Session} {fault : Fault} (hparse : Request.parse text = .ok r)
      (hsession : r.session settings = .ok s)
      (hhash : s.signingHash keccak256 r.primaryType r.message r.domain = .error fault) :
      Hashed settings text (.error (.ofFault fault)) (.error (.hashing r.primaryType fault))
  | hashed {r : Request} {a : DigestAnswer} {notes : List Log.Entry}
      (hparse : Request.parse text = .ok r) (hprimary : a.primaryType = r.primaryType)
      (hversion : a.version = r.effectiveVersion settings) :
      Hashed settings text (.ok a) (.ok (a.toJson.pretty, notes))

theorem hashed (settings : Settings) (text : String) :
    Hashed settings text (Service.digestOf settings text) (runDigest settings true text) := by
  unfold Service.digestOf runDigest load
  cases hparse : Request.parse text with
  | error fault => exact .unread hparse
  | ok r =>
    cases hsession : r.session settings with
    | error fault =>
      simp only [Request.signingHash, hsession, bind, Except.bind, Except.mapError]
      exact .unopened hparse hsession
    | ok s =>
      have hversion : s.version = r.effectiveVersion settings := by
        obtain ⟨schema, -, rfl⟩ := Request.session_eq_ok.1 hsession
        rfl
      cases hhash : s.signingHash keccak256 r.primaryType r.message r.domain with
      | error fault =>
        simp only [Request.signingHash, hsession, hhash, bind, Except.bind, Except.mapError, pure,
          Except.pure]
        exact .unhashed hparse hsession hhash
      | ok d =>
        simp only [Request.signingHash, hsession, hhash, hversion, bind, Except.bind,
          Except.mapError, pure, Except.pure]
        exact .hashed hparse rfl rfl

namespace Hashed
variable {ran : Except RunFault (String × List Log.Entry)}

theorem of_error {f : Failure} (h : Hashed settings text (.error f) ran) :
    ∃ e fault, ran = .error e ∧ e.origin? = some fault ∧
      (Request.parse text = .error fault ∧ f.code = .parseError ∧ f.details = some fault.message ∨
        (∃ r, Request.parse text = .ok r) ∧ f = .ofFault fault) := by
  cases h with
  | unread hparse => exact ⟨_, _, rfl, rfl, .inl ⟨hparse, rfl, rfl⟩⟩
  | unopened hparse => exact ⟨_, _, rfl, rfl, .inr ⟨⟨_, hparse⟩, rfl⟩⟩
  | unhashed hparse => exact ⟨_, _, rfl, rfl, .inr ⟨⟨_, hparse⟩, rfl⟩⟩

theorem of_ok {a : DigestAnswer} (h : Hashed settings text (.ok a) ran) :
    ∃ r notes, ran = .ok (a.toJson.pretty, notes) ∧ Request.parse text = .ok r ∧
      a.primaryType = r.primaryType ∧ a.version = r.effectiveVersion settings := by
  cases h with
  | hashed hparse hprimary hversion => exact ⟨_, _, rfl, hparse, hprimary, hversion⟩

end Hashed

/-! ## From the outside -/

/-- The arguments that ask for a digest as JSON. -/
def digestArguments : List String := ["--json", "digest"]

theorem parse_digestArguments :
    Invocation.parse digestArguments = .ok ⟨{ json := true }, { action := .digest }⟩ := by
  cbv

variable {env : Environment}

theorem run_digestArguments_ok (file : String → Except SystemFault Bytes) {printed : String}
    {notes : List Log.Entry}
    (h : runDigest (Service.settings env) true text = .ok (printed, notes)) :
    (run ⟨env, utf8 text, file⟩ digestArguments).exitCode = 0 ∧
      (run ⟨env, utf8 text, file⟩ digestArguments).stdout = printed ++ "\n" := by
  rw [run, parse_digestArguments]
  simp only [Service.settings] at h
  simp [Invocation.run, World.payload, ofUtf8?_utf8, CommandLine.settings, Command.run, h, bind,
    Except.bind, lines_singleton]

theorem run_digestArguments_error (file : String → Except SystemFault Bytes) {e : RunFault}
    (h : runDigest (Service.settings env) true text = .error e) :
    (run ⟨env, utf8 text, file⟩ digestArguments).Reports e := by
  rw [run, parse_digestArguments]
  simp only [Service.settings] at h
  simp only [Invocation.run, World.payload, ofUtf8?_utf8, CommandLine.settings, Command.run, h,
    bind, Except.bind, Option.elim_none, Bool.false_eq_true, if_false]
  exact ⟨rfl, rfl, _, lines_append_singleton _ _⟩

/-- A reply to a text and the outcome of a run on it tell the same: one answer, or one fault
    behind both failures. -/
structure HashAlike (text : String) (env : Environment) (reply : Reply DigestAnswer)
    (outcome : Outcome) : Prop where
  success : (∃ a, reply = .ok a) ↔ outcome.exitCode = 0
  failure : (∃ f, reply = .fail f) ↔ outcome.exitCode = 1
  answer : ∀ a, reply = .ok a →
    Json.parse outcome.stdout = .ok a.sorted ∧
    Json.parse (reply.render DigestAnswer.toJson) =
      .ok (.object [("data", a.sorted), ("error", .null), ("success", .bool true)]) ∧
    ∃ r, Request.parse text = .ok r ∧ a.primaryType = r.primaryType ∧
      a.version = r.version.getD (((env Settings.versionVariable).bind Version.ofTag?).getD .v4)
  fault : ∀ f, reply = .fail f → ∃ e fault,
    outcome.Reports e ∧ e.origin? = some fault ∧ e.lastCause = fault.message ∧
    (Request.parse text = .error fault ∧ f.code = .parseError ∧ f.details = some fault.message ∨
      (∃ r, Request.parse text = .ok r) ∧ f = .ofFault fault)

/-- A call of the service and a run of the program with the same text and environment tell
    the same. -/
theorem hash_alike (h : '\x00' ∉ text.toList) (env : Environment)
    (file : String → Except SystemFault Bytes) :
    HashAlike text env (Service.hash env (some (utf8 text)))
      (run ⟨env, utf8 text, file⟩ digestArguments) := by
  have hreply : Service.hash env (some (utf8 text)) =
      .ofExcept (Service.digestOf (Service.settings env) text) := by
    rw [Service.hash, Service.inputText_utf8 h]
    rfl
  have stages := hashed (Service.settings env) text
  rw [hreply]
  cases hserved : Service.digestOf (Service.settings env) text with
  | error f =>
    obtain ⟨e, fault, hrun, horigin, hblame⟩ := (hserved ▸ stages).of_error
    have reports := run_digestArguments_error file hrun
    refine ⟨iff_of_false (by simp) (by simp [reports.1]), iff_of_true ⟨f, rfl⟩ reports.1, by simp,
      fun g hg => ?_⟩
    obtain rfl : f = g := Except.error.inj (Reply.ofExcept_eq_fail.1 hg)
    exact ⟨e, fault, reports, horigin, RunFault.lastCause_eq horigin, hblame⟩
  | ok a =>
    obtain ⟨r, notes, hrun, hparse, hprimary, hversion⟩ := (hserved ▸ stages).of_ok
    obtain ⟨hexit, hstdout⟩ := run_digestArguments_ok file hrun
    refine ⟨iff_of_true ⟨a, rfl⟩ hexit, iff_of_false (by simp) (by simp [hexit]), fun b hb => ?_,
      by simp⟩
    obtain rfl : a = b := Except.ok.inj (Reply.ofExcept_eq_ok.1 hb)
    rw [hstdout]
    refine ⟨parse_line a.readsBack, Reply.parse_render_ok a.readsBack, r, hparse, hprimary, ?_⟩
    rw [hversion, Request.effectiveVersion, Service.settings, Settings.version_ofEnvironment]
    rfl

theorem hash_alike_mail :
    '\x00' ∉ mailText.toList ∧
      ∃ a, Service.hash (fun _ => some "v3") (some (utf8 mailText)) = .ok a ∧ a.version = .v3 ∧
        Json.parse (run ⟨fun _ => some "v3", utf8 mailText, fun _ => .error .missing⟩
          digestArguments).stdout = .ok a.sorted := by
  have plain : '\x00' ∉ mailText.toList := by decide +kernel
  have alike := hash_alike plain (fun _ => some "v3") fun _ => .error .missing
  have runs : (Service.hash (fun _ => some "v3") (some (utf8 mailText))).data.map
      DigestAnswer.version = some .v3 := by
    decide +kernel
  obtain ⟨a, ha, hversion⟩ := Option.map_eq_some_iff.1 runs
  have replied := Reply.eq_ok_of_data ha
  exact ⟨plain, a, replied, hversion, (alike.answer a replied).1⟩

end Digest

/-! ## Type strings -/

section TypeStrings
variable {settings : Settings} {text : String} {q : Query} {a : TypeAnswer}

theorem typeOf_eq_ok (h : Query.parse text = .ok q) :
    Service.typeOf settings text = .ok a ↔
      ∃ s, q.request.session settings = .ok s ∧ s.schema.contains q.target = true ∧
        a = Service.typeAnswer s q.target := by
  simp only [Service.typeOf, h, bind_eq_ok, mapError_eq_ok]
  constructor
  · intro run
    obtain ⟨_, hq, s, hs, answered⟩ := run
    cases hq
    split at answered
    case isTrue defined => exact ⟨s, hs, defined, (Except.ok.inj answered).symm⟩
    case isFalse => cases answered
  · intro run
    obtain ⟨s, hs, defined, rfl⟩ := run
    exact ⟨q, rfl, s, hs, if_pos defined⟩

/-- A session tells about a type what its schema tells. -/
theorem typeAnswer_eq {s s' : Session} (h : s.schema = s'.schema) (name : String) :
    Service.typeAnswer s name = Service.typeAnswer s' name := by
  simp only [Service.typeAnswer, Session.typeHash, h]

/-- The command for the type that a query names. -/
def typeCommand (q : Query) : Command := { action := .encodeType, typeName := q.typeName }

/-- A reply to the text of a query tells of a type what the command prints that names the
    type of the query. -/
structure TypeAlike (settings : Settings) (text : String) (q : Query) (reply : Reply TypeAnswer) :
    Prop where
  success (json : Bool) :
    (∃ a, reply = .ok a) ↔ ∃ printed, Prints settings json (typeCommand q) text printed
  answer : ∀ a, reply = .ok a →
    (∃ printed, Prints settings true (typeCommand q) text printed ∧
      Json.parse printed = .ok a.sorted) ∧
    Prints settings false (typeCommand q) text a.encodedType ∧
    Json.parse (reply.render TypeAnswer.toJson) =
      .ok (.object [("data", a.sorted), ("error", .null), ("success", .bool true)]) ∧
    a.typeName = q.target ∧ a.typeHash = Hex.encode (keccak256 (utf8 a.encodedType)).bytes

/-- A text that is a query is read as its request, and what the service answers to it in any
    environment the command prints under any settings. -/
theorem encodeType_alike (h : Query.parse text = .ok q) :
    Request.parse text = .ok q.request ∧
      ∀ (env : Environment) (settings : Settings),
        TypeAlike settings text q (Service.encodeType env (some (utf8 text))) := by
  have hrequest := Query.parse_request h
  refine ⟨hrequest, fun env settings => ?_⟩
  have hreply : Service.encodeType env (some (utf8 text)) =
      .ofExcept (Service.typeOf (Service.settings env) text) := by
    rw [Service.encodeType, Service.inputText_utf8 (Query.zero_not_mem_of_parse h)]
    rfl
  have prints (json : Bool) {a : TypeAnswer}
      (ha : Service.typeOf (Service.settings env) text = .ok a) :
      Prints settings json (typeCommand q) text (typeText json a) := by
    obtain ⟨s, hs, defined, rfl⟩ := (typeOf_eq_ok h).1 ha
    obtain ⟨schema, hschema, rfl⟩ := Request.session_eq_ok.1 hs
    refine prints_encodeType_iff.2 ⟨q.request, _, load_eq_ok.2 ⟨hrequest,
      Request.session_eq_ok.2 ⟨schema, hschema, rfl⟩⟩, defined, ?_⟩
    exact congrArg (typeText json) (typeAnswer_eq rfl _)
  rw [hreply]
  refine ⟨fun json => ?_, fun a ha => ?_⟩
  · simp only [Reply.ofExcept_eq_ok]
    constructor
    · intro served
      obtain ⟨a, ha⟩ := served
      exact ⟨_, prints json ha⟩
    · intro printed
      obtain ⟨_, printed⟩ := printed
      obtain ⟨r, s, hload, defined, -⟩ := prints_encodeType_iff.1 printed
      obtain ⟨hr, hs⟩ := load_eq_ok.1 hload
      obtain rfl : q.request = r := Except.ok.inj (hrequest.symm.trans hr)
      obtain ⟨schema, hschema, rfl⟩ := Request.session_eq_ok.1 hs
      exact ⟨_, (typeOf_eq_ok h).2 ⟨_, Request.session_eq_ok.2 ⟨schema, hschema, rfl⟩, defined,
        rfl⟩⟩
  · have ha := Reply.ofExcept_eq_ok.1 ha
    rw [ha]
    refine ⟨⟨_, prints true ha, parse_print a.readsBack⟩, prints false ha,
      Reply.parse_render_ok a.readsBack, ?_⟩
    obtain ⟨s, -, -, rfl⟩ := (typeOf_eq_ok h).1 ha
    exact ⟨rfl, rfl⟩

/-- A query for another type than its request's, with a member that no request has. -/
def queryText : String :=
  "\x7b\"typeName\":\"Note\",\"version\":null,\"types\":\x7b\"Note\":[]\x7d," ++
    "\"memo\":[1E3,\"\\ud83d\\ude00\"]," ++
    "\"primaryType\":\"Mail\",\"domain\":\x7b\x7d,\"message\":\x7b\x7d\x7d"

theorem encodeType_alike_note :
    ∃ q a, Query.parse queryText = .ok q ∧ q.typeName = some "Note" ∧
      Request.parse queryText = .ok q.request ∧
      Service.encodeType (fun _ => none) (some (utf8 queryText)) = .ok a ∧
      Prints .compatible false (typeCommand q) queryText a.encodedType ∧
      a.typeHash = Hex.encode (keccak256 (utf8 a.encodedType)).bytes := by
  have named : (Query.parse queryText).toOption.map Query.typeName = some (some "Note") := by
    decide +kernel
  have served : (Service.encodeType (fun _ => none) (some (utf8 queryText))).data.map
      TypeAnswer.typeName = some "Note" := by
    decide +kernel
  cases hq : Query.parse queryText with
  | error fault => simp [hq, Except.toOption] at named
  | ok q =>
    obtain ⟨a, ha, -⟩ := Option.map_eq_some_iff.1 served
    have replied := Reply.eq_ok_of_data ha
    obtain ⟨hrequest, alike⟩ := encodeType_alike hq
    obtain ⟨-, printed, -, -, hhash⟩ := (alike (fun _ => none) .compatible).answer a replied
    refine ⟨q, a, rfl, ?_, hrequest, replied, printed, hhash⟩
    simpa [hq, Except.toOption] using named

end TypeStrings
end CommandLine
end TypedMessage
