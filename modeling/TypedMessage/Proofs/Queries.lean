import TypedMessage.Proofs.Requests
import TypedMessage.Proofs.Skipping
import TypedMessage.Request.Query

/- Queries and requests in one text. A query reads every member as a value before it looks
   at any, a request reads the members it knows and passes over the others; but a text that
   is a query is a request, and the same one (`Query.parse_request`). -/
namespace TypedMessage
namespace Json

section Folds
variable {σ τ α : Type} {n : Nat} {first : Bool} {s s₁ s' rest : List Char}

/-- The members of an object are taken by a second step too, if it can take each of them
    from a state that the relation leads back to. -/
theorem foldMembers_back {step : σ → String → Read σ} {step' : τ → String → Read τ}
    {R : σ → τ → Prop} {acc acc' : σ} {e' : τ}
    (h : foldMembers step n first acc s = .ok (acc', rest)) (hR : R acc' e')
    (back : ∀ acc k s acc' s' e', step acc k s = .ok (acc', s') → R acc' e' →
      ∃ e, R acc e ∧ step' e k s = .ok (e', s')) :
    ∃ e, R acc e ∧ foldMembers step' n first e s = .ok (e', rest) := by
  induction n generalizing first s acc with
  | zero => cases h
  | succ n ih =>
    rw [foldMembers] at h
    obtain ⟨turn, hturn, h⟩ := bind_eq_ok.1 h
    cases turn with
    | close s' =>
      obtain ⟨rfl, rfl⟩ := Prod.mk.inj (Except.ok.inj h)
      exact ⟨e', hR, by rw [foldMembers, hturn]; rfl⟩
    | item s₁ =>
      obtain ⟨⟨k, s₂⟩, hk, h⟩ := bind_eq_ok.1 h
      obtain ⟨⟨next, s₃⟩, hnext, h⟩ := bind_eq_ok.1 h
      obtain ⟨e₁, hR₁, htail⟩ := ih h
      obtain ⟨e, hRe, hstep⟩ := back acc k s₂ next s₃ e₁ hnext hR₁
      refine ⟨e, hRe, ?_⟩
      rw [foldMembers, hturn]
      simp [bind, Except.bind, hk, hstep, htail]

namespace Record
variable {R : Record σ α} {d : σ} {key : String}

theorem takeMember_other (hfind : R.members.find? (·.name = key) = none)
    (hcolon : readColon s = .ok s₁) (hvalue : Passed s₁ s') :
    R.takeMember d key s = .ok (d, s') := by
  rw [takeMember, hfind]
  simp [hcolon, hvalue.skipValue, bind, Except.bind, pure, Except.pure]

end Record

/-! ## Texts and nulls -/

/-- From `s` to `rest` stands the value, if it is null or a text. -/
def Stands (s rest : List Char) : Json → Prop
  | .null => ∃ s', skipSpace s = 'n' :: s' ∧ readWord "ull".toList s' = .ok rest
  | .string t => ∃ s', skipSpace s = '"' :: s' ∧ readString s' = .ok (t, rest)
  | _ => True

theorem stands_of_readValueWith {inner : Option (Read Json)} {v : Json}
    (h : readValueWith inner s = .ok (v, rest)) : Stands s rest v := by
  unfold readValueWith at h
  split at h
  case h_1 => cases h
  case h_2 s' hs =>
    obtain ⟨s'', hword, h⟩ := bind_eq_ok.1 h
    cases h
    exact ⟨s', hs, hword⟩
  case h_3 | h_4 =>
    obtain ⟨s', -, h⟩ := bind_eq_ok.1 h
    cases h
    trivial
  case h_5 s' hs =>
    obtain ⟨⟨t, s''⟩, ht, h⟩ := bind_eq_ok.1 h
    cases h
    exact ⟨s', hs, ht⟩
  case h_6 | h_7 =>
    cases inner with
    | none => cases h
    | some item =>
      obtain ⟨_, -, h⟩ := bind_eq_ok.1 h
      cases h
      trivial
  case h_8 =>
    split at h
    case isTrue =>
      obtain ⟨_, -, h⟩ := bind_eq_ok.1 h
      cases h
      trivial
    case isFalse => cases h

theorem stands_of_readValue {d : Nat} {v : Json} (h : readValue d s = .ok (v, rest)) :
    Stands s rest v := by
  cases d <;> exact stands_of_readValueWith h

theorem readText_of_stands {t : String} (h : Stands s rest (.string t)) :
    readText s = .ok (t, rest) := by
  obtain ⟨s', hs, ht⟩ := h
  rw [readText, hs]
  exact ht

theorem readOption_of_null (read : Read α) (h : Stands s rest .null) :
    readOption read s = .ok (none, rest) := by
  obtain ⟨s', hs, hword⟩ := h
  rw [readOption, hs]
  exact bind_eq_ok.2 ⟨rest, hword, rfl⟩

theorem readOption_of_text {read : Read α} {t : String} {a : α} (h : Stands s rest (.string t))
    (hread : read (skipSpace s) = .ok (a, rest)) : readOption read s = .ok (some a, rest) := by
  obtain ⟨s', hs, -⟩ := h
  rw [hs] at hread
  rw [readOption, hs]
  simp [hread, bind, Except.bind, pure, Except.pure]

end Folds

theorem once_eq_ok {ε α β : Type} {old : Option β} {e : ε} {x : Except ε α} {a : α} :
    (if old.isSome then .error e else x) = .ok a ↔ old.isSome = false ∧ x = .ok a := by
  cases old <;> simp

theorem textAhead_eq_ok {v : Json} {t : String} : v.textAhead = .ok t ↔ v = .string t := by
  cases v <;> simp [textAhead]

end Json

/-! ## Members -/

namespace Request
open Json
variable {d d' : Draft} {key : String} {v : Json} {s s₁ s' : List Char}

theorem readVersion_of_stands {tag : String} {version : Version} (h : Stands s s' (.string tag))
    (htag : versionOfTag tag = .ok version) :
    readOption readVersion s = .ok (some version, s') := by
  refine readOption_of_text h ?_
  have htext : readText (skipSpace s) = .ok (tag, s') := by
    obtain ⟨t, hs, ht⟩ := h
    exact readText_of_stands ⟨t, by rw [skipSpace_skipSpace, hs], ht⟩
  rw [readVersion, htext]
  simp [htag, bind, Except.bind, pure, Except.pure]

/-- A member that was read ahead and put into a draft is taken into it from the text. -/
theorem takeMember_of_put (hcolon : readColon s = .ok s₁) (hv : readInner s₁ = .ok (v, s'))
    (hput : d.put key v = .ok d') : record.takeMember d key s = .ok (d', s') := by
  have stands := stands_of_readValue hv
  -- The keys are `types`, `primaryType`, `domain`, `message` and `version`, then all others.
  unfold Draft.put at hput
  split at hput
  case h_1 | h_3 | h_4 =>
    obtain ⟨absent, hput⟩ := once_eq_ok.1 hput
    cases hput
    exact Record.takeMember_of rfl absent hcolon hv rfl
  case h_2 =>
    obtain ⟨absent, hput⟩ := once_eq_ok.1 hput
    obtain ⟨t, ht, hput⟩ := bind_eq_ok.1 hput
    cases hput
    rw [textAhead_eq_ok.1 ht] at stands
    exact Record.takeMember_of rfl absent hcolon (readText_of_stands stands) rfl
  case h_5 =>
    obtain ⟨absent, hput⟩ := once_eq_ok.1 hput
    split at hput
    case h_1 =>
      cases hput
      exact Record.takeMember_of rfl absent hcolon (readOption_of_null _ stands) rfl
    case h_2 =>
      obtain ⟨tag, htag, hput⟩ := bind_eq_ok.1 hput
      obtain ⟨version, hversion, hput⟩ := bind_eq_ok.1 hput
      cases hput
      rw [textAhead_eq_ok.1 htag] at stands
      exact Record.takeMember_of rfl absent hcolon (readVersion_of_stands stands hversion) rfl
  case h_6 htypes hprimary hdomain hmessage hversion =>
    cases hput
    refine Record.takeMember_other ?_ hcolon (passed_of_readValue hv)
    simp [record, Member.of, Ne.symm htypes, Ne.symm hprimary, Ne.symm hdomain,
      Ne.symm hmessage, Ne.symm hversion]

end Request

namespace Query
open Json
variable {d d' : Draft} {e' : Request.Draft} {q : Query} {key text : String} {s s' : List Char}

theorem passed_of_takeMember (h : takeMember d key s = .ok (d', s')) :
    ∃ s₁, readColon s = .ok s₁ ∧ Passed s₁ s' := by
  rw [takeMember] at h
  split at h
  case isTrue =>
    split at h
    case isTrue => cases h
    case isFalse =>
      obtain ⟨s₁, hcolon, h⟩ := bind_eq_ok.1 h
      obtain ⟨⟨t, s₂⟩, ht, h⟩ := bind_eq_ok.1 h
      cases h
      exact ⟨s₁, hcolon, passed_of_readOption (fun _ _ _ => passed_of_readText) ht⟩
  case isFalse =>
    obtain ⟨s₁, hcolon, h⟩ := bind_eq_ok.1 h
    obtain ⟨⟨v, s₂⟩, hv, h⟩ := bind_eq_ok.1 h
    cases h
    exact ⟨s₁, hcolon, passed_of_readValue hv⟩

/-- The members that were read ahead fill this draft. -/
def Draft.Fills (d : Draft) (e : Request.Draft) : Prop :=
  d.members.foldlM (fun e m => e.put m.1 m.2) ({} : Request.Draft) = .ok e

/-- A member that a query takes is taken by a request too. -/
theorem takeMember_back (h : takeMember d key s = .ok (d', s')) (he' : d'.Fills e') :
    ∃ e, d.Fills e ∧ Request.record.takeMember e key s = .ok (e', s') := by
  obtain ⟨s₁, hcolon, passed⟩ := passed_of_takeMember h
  rw [takeMember] at h
  split at h
  case isTrue hkey =>
    split at h
    case isTrue => cases h
    case isFalse =>
      obtain ⟨s₂, -, h⟩ := bind_eq_ok.1 h
      obtain ⟨⟨t, s₃⟩, -, h⟩ := bind_eq_ok.1 h
      cases h
      exact ⟨e', he', Record.takeMember_other (by rw [hkey]; rfl) hcolon passed⟩
  case isFalse =>
    obtain ⟨s₂, hcolon, h⟩ := bind_eq_ok.1 h
    obtain ⟨⟨v, s₃⟩, hv, h⟩ := bind_eq_ok.1 h
    cases h
    rw [Draft.Fills, List.foldlM_append] at he'
    obtain ⟨e, he, hput⟩ := bind_eq_ok.1 he'
    refine ⟨e, he, Request.takeMember_of_put hcolon hv ?_⟩
    simpa using hput

/-- The object that a query was read from. -/
theorem exists_object_of_read {rest : List Char} (h : read s = .ok (q, rest)) :
    ∃ body d e, skipSpace s = '\x7b' :: body ∧
      foldMembers takeMember body.length true {} body = .ok (d, rest) ∧ d.Fills e ∧
      e.complete = .ok q.request ∧ q.typeName = d.typeName.getD none := by
  rw [read] at h
  split at h
  case h_1 body hs =>
    obtain ⟨⟨d, s'⟩, hd, h⟩ := bind_eq_ok.1 h
    obtain ⟨q', hq, h⟩ := bind_eq_ok.1 h
    cases h
    obtain ⟨e, he, hq⟩ := bind_eq_ok.1 hq
    obtain ⟨r, hr, hq⟩ := bind_eq_ok.1 hq
    cases hq
    exact ⟨body, d, e, hs, hd, he, hr, rfl⟩
  case h_2 => cases h

/-- A text that is a query is a request too, the one in the query. -/
theorem parse_request (h : parse text = .ok q) : Request.parse text = .ok q.request := by
  obtain ⟨rest, hread, blank⟩ := document_eq_ok.1 h
  obtain ⟨body, d, e, hs, hd, he, hr, -⟩ := exists_object_of_read hread
  obtain ⟨e₀, he₀, hfold⟩ := foldMembers_back hd he fun _ _ _ _ _ _ => takeMember_back
  cases he₀
  refine Request.parse_eq_ok.2 (document_eq_ok.2 ⟨rest, ?_, blank⟩)
  rw [Record.read, hs]
  exact bind_eq_ok.2 ⟨(e, rest), hfold, bind_eq_ok.2 ⟨q.request, hr, rfl⟩⟩

/-- No zero character stands in the text of a query. -/
theorem zero_not_mem_of_parse (h : parse text = .ok q) : '\x00' ∉ text.toList := by
  obtain ⟨rest, hread, blank⟩ := document_eq_ok.1 h
  obtain ⟨body, d, e, hs, hd, -⟩ := exists_object_of_read hread
  have members : PassedBy (skipMembers · true) 1 body rest :=
    passedBy_of_foldMembers (fun _ _ _ _ _ => passed_of_takeMember) hd
  exact ((past_of_skipSpace hs (by decide)).trans members.past).zero_not_mem blank

end Query
end TypedMessage
