import TypedMessage.Proofs.Layout
import TypedMessage.Proofs.Numerals

/- The texts that are read as integers. `Spells` is the grammar: an optional minus, then a
   hexadecimal mark and up to 64 digits, or decimal digits, and a magnitude below 2^256.
   The reader gives sign and magnitude of all these texts; besides them it reads only the
   texts with a second mark behind the first (`read_eq_ok_iff`). -/
namespace TypedMessage

namespace Integer
variable {text : String} {cs ds : List Char} {vs : List Nat} {negative : Bool} {m : Nat} {n : Int}

/-! ## The grammar -/

/-- The characters are these hexadecimal digits, of either case. -/
abbrev HexDigits (ds : List Char) (vs : List Nat) : Prop :=
  List.Forall₂ (fun d v => Hex.digitValue? d = some v) ds vs

/-- The text is a numeral, decimal or hexadecimal with its mark, of this number. -/
inductive Denotes : List Char → Nat → Prop
  | decimal {ds : List Char} (nonempty : ds ≠ []) (digits : ∀ d ∈ ds, d.isDigit = true) :
      Denotes ds (Text.decimalValue ds)
  | hexadecimal {mark : Char} {ds : List Char} {vs : List Nat} (mark_eq : mark = 'x' ∨ mark = 'X')
      (nonempty : ds ≠ []) (short : ds.length ≤ 64) (digits : HexDigits ds vs) :
      Denotes ('0' :: mark :: ds) (Hex.value vs)

/-- The text has a small hexadecimal mark behind its mark, and then digits of this number
    or none. -/
inductive DenotesMarked : List Char → Nat → Prop
  | again {mark : Char} {ds : List Char} {vs : List Nat} (mark_eq : mark = 'x' ∨ mark = 'X')
      (short : ds.length ≤ 62) (digits : HexDigits ds vs) :
      DenotesMarked ('0' :: mark :: '0' :: 'x' :: ds) (Hex.value vs)

/-- The text is an optional minus and then a text of the magnitude `m`, as `denotes` says. -/
inductive Signed (denotes : List Char → Nat → Prop) : List Char → Bool → Nat → Prop
  | plain {cs : List Char} {m : Nat} (magnitude : denotes cs m) : Signed denotes cs false m
  | minus {cs : List Char} {m : Nat} (magnitude : denotes cs m) :
      Signed denotes ('-' :: cs) true m

/-- The text spells an integer of this sign and magnitude. -/
def Spells (cs : List Char) (negative : Bool) (m : Nat) : Prop :=
  Signed Denotes cs negative m ∧ m < 2 ^ 256

/-- The text would spell an integer if its second mark were not there. -/
def SpellsMarked (cs : List Char) (negative : Bool) (m : Nat) : Prop :=
  Signed DenotesMarked cs negative m

/-- The integer of a sign and a magnitude. -/
def ofSign (negative : Bool) (m : Nat) : Int := if negative then -(m : Int) else m

/-! ## Digits -/

theorem hexDigits_iff : HexDigits ds vs ↔ ds.mapM Hex.digitValue? = some vs := by
  induction ds generalizing vs with
  | nil => simp [eq_comm]
  | cons d ds ih =>
    simp only [List.forall₂_cons_left_iff, List.mapM_cons, Option.bind_eq_bind,
      Option.bind_eq_some_iff, Option.pure_def, Option.some.injEq, ih]
    constructor
    · intro digits
      obtain ⟨v, ws, hv, hws, rfl⟩ := digits
      exact ⟨v, hv, ws, hws, rfl⟩
    · intro digits
      obtain ⟨v, hv, ws, hws, rfl⟩ := digits
      exact ⟨v, ws, hv, hws, rfl⟩

theorem HexDigits.isDigit (digits : HexDigits ds vs) : ∀ d ∈ ds, Hex.IsDigit d := by
  intro d hd
  obtain ⟨v, -, hv⟩ := exists_mem_of_forall₂ (List.Forall₂.flip digits) hd
  exact Hex.isSome_digitValue?.1 (by rw [hv]; rfl)

theorem HexDigits.ascii (digits : HexDigits ds vs) : ∀ d ∈ ds, d.toNat < 128 :=
  fun d hd => (digits.isDigit d hd).ascii

/-- A mark is no digit. -/
theorem HexDigits.unmarked (digits : HexDigits ds vs) : 'x' ∉ ds ∧ 'X' ∉ ds := by
  have no {c : Char} (hc : Hex.digitValue? c = none) : c ∉ ds := by
    intro hd
    have := Hex.isSome_digitValue?.2 (digits.isDigit c hd)
    rw [hc] at this
    cases this
  exact ⟨no rfl, no rfl⟩

/-! ## The reader -/

theorem afterMark?_eq_some : afterMark? cs = some ds ↔
    ∃ mark, (mark = 'x' ∨ mark = 'X') ∧ cs = '0' :: mark :: ds := by
  constructor
  · intro marked
    unfold afterMark? at marked
    split at marked
    case h_1 => cases marked; exact ⟨'x', .inl rfl, rfl⟩
    case h_2 => cases marked; exact ⟨'X', .inr rfl, rfl⟩
    case h_3 => cases marked
  · intro marked
    obtain ⟨mark, rfl | rfl, rfl⟩ := marked <;> rfl

theorem dropMark_cases (cs : List Char) :
    (∃ ds, cs = '0' :: 'x' :: ds ∧ dropMark cs = ds) ∨
      (∀ ds, cs ≠ '0' :: 'x' :: ds) ∧ dropMark cs = cs := by
  unfold dropMark
  split
  case h_1 ds => exact .inl ⟨ds, rfl, rfl⟩
  case h_2 unmarked => exact .inr ⟨unmarked, rfl⟩

/-- The length is counted in bytes, which for digits and marks is the same. -/
theorem readHex?_eq_some : readHex? cs = some m ↔
    cs ≠ [] ∧ cs.length ≤ 64 ∧ ∃ vs, HexDigits (dropMark cs) vs ∧ m = Hex.value vs := by
  have bytes {vs : List Nat} (digits : HexDigits (dropMark cs) vs) :
      (utf8 (String.ofList cs)).length = cs.length := by
    refine length_utf8_of_ascii ?_
    rcases dropMark_cases cs with ⟨ds, rfl, drop⟩ | ⟨-, drop⟩
    · rw [drop] at digits
      exact List.forall_mem_cons.2 ⟨by decide, List.forall_mem_cons.2 ⟨by decide, digits.ascii⟩⟩
    · exact (drop ▸ digits).ascii
  simp only [readHex?, hexDigits_iff] at bytes ⊢
  constructor
  · intro read
    split at read
    case isTrue => cases read
    case isFalse bound =>
      obtain ⟨vs, hvs, rfl⟩ := Option.map_eq_some_iff.1 read
      rw [bytes hvs] at bound
      simp only [Bool.or_eq_true, List.isEmpty_iff, decide_eq_true_eq, not_or, Nat.not_lt] at bound
      exact ⟨bound.1, bound.2, vs, hvs, rfl⟩
  · intro read
    obtain ⟨nonempty, short, vs, hvs, rfl⟩ := read
    rw [bytes hvs, if_neg (by simpa [nonempty] using short), hvs]
    rfl

/-- What is read behind the mark is digits, or a second mark and digits. -/
theorem readHex?_cases : readHex? ds = some m ↔
    (∃ vs, ds ≠ [] ∧ ds.length ≤ 64 ∧ HexDigits ds vs ∧ m = Hex.value vs) ∨
      ∃ ds' vs, ds = '0' :: 'x' :: ds' ∧ ds'.length ≤ 62 ∧ HexDigits ds' vs ∧ m = Hex.value vs := by
  rw [readHex?_eq_some]
  rcases dropMark_cases ds with ⟨ds', rfl, drop⟩ | ⟨unmarked, drop⟩ <;> rw [drop]
  · constructor
    · intro read
      obtain ⟨-, short, vs, digits, rfl⟩ := read
      exact .inr ⟨ds', vs, rfl, Nat.le_of_succ_le_succ (Nat.le_of_succ_le_succ short), digits, rfl⟩
    · intro read
      rcases read with ⟨vs, -, -, digits, -⟩ | ⟨ds', vs, h, short, digits, rfl⟩
      · exact absurd (by simp) digits.unmarked.1
      · cases h
        exact ⟨by simp, Nat.add_le_add_right short 2, vs, digits, rfl⟩
  · constructor
    · intro read
      obtain ⟨nonempty, short, vs, digits, rfl⟩ := read
      exact .inl ⟨vs, nonempty, short, digits, rfl⟩
    · intro read
      rcases read with ⟨vs, nonempty, short, digits, rfl⟩ | ⟨ds', -, h, -⟩
      · exact ⟨nonempty, short, vs, digits, rfl⟩
      · exact absurd h (unmarked ds')

theorem readMagnitude_marked (marked : afterMark? cs = some ds) :
    readMagnitude text cs = .ok m ↔ readHex? ds = some m := by
  simp only [readMagnitude, marked]
  cases readHex? ds <;> simp

theorem readMagnitude_unmarked (unmarked : afterMark? cs = none) :
    readMagnitude text cs = .ok m ↔ Text.readDecimal? cs = some m ∧ m < 2 ^ 256 := by
  simp only [readMagnitude, unmarked]
  cases Text.readDecimal? cs with
  | none => simp
  | some k =>
    simp only [Option.some.injEq]
    split
    case isTrue fits => exact ⟨fun h => by cases h; exact ⟨rfl, fits⟩, fun h => by rw [h.1]⟩
    case isFalse large => exact ⟨nofun, fun h => absurd h.2 (h.1 ▸ large)⟩

/-- A magnitude is read from the numerals of at most 256 bits, and from digits behind two
    marks. -/
theorem readMagnitude_eq_ok :
    readMagnitude text cs = .ok m ↔ Denotes cs m ∧ m < 2 ^ 256 ∨ DenotesMarked cs m := by
  cases hcs : afterMark? cs with
  | some ds =>
    obtain ⟨mark, mark_eq, rfl⟩ := afterMark?_eq_some.1 hcs
    rw [readMagnitude_marked hcs, readHex?_cases]
    constructor
    · intro read
      rcases read with ⟨vs, nonempty, short, digits, rfl⟩ | ⟨ds, vs, rfl, short, digits, rfl⟩
      · have hex := readHex?_cases.2 (.inl ⟨vs, nonempty, short, digits, rfl⟩)
        exact .inl ⟨.hexadecimal mark_eq nonempty short digits, lt_of_readHex? hex⟩
      · exact .inr (.again mark_eq short digits)
    · intro denoted
      rcases denoted with ⟨denotes, -⟩ | denotes
      · cases denotes with
        | decimal _ digits =>
          -- A mark is no decimal digit.
          rcases mark_eq with rfl | rfl <;> simp at digits
        | hexadecimal _ nonempty short digits => exact .inl ⟨_, nonempty, short, digits, rfl⟩
      · cases denotes with
        | again _ short digits => exact .inr ⟨_, _, rfl, short, digits, rfl⟩
  | none =>
    have unmarked {mark : Char} {ds : List Char} (mark_eq : mark = 'x' ∨ mark = 'X') :
        cs ≠ '0' :: mark :: ds := fun h => by
      rw [afterMark?_eq_some.2 ⟨mark, mark_eq, h⟩] at hcs
      cases hcs
    rw [readMagnitude_unmarked hcs, Text.readDecimal?_eq_some_iff]
    constructor
    · intro read
      obtain ⟨⟨⟨nonempty, digits⟩, rfl⟩, fits⟩ := read
      exact .inl ⟨.decimal nonempty digits, fits⟩
    · intro denoted
      rcases denoted with ⟨denotes, fits⟩ | denotes
      · cases denotes with
        | decimal nonempty digits => exact ⟨⟨⟨nonempty, digits⟩, rfl⟩, fits⟩
        | hexadecimal mark_eq => exact absurd rfl (unmarked mark_eq)
      · cases denotes with
        | again mark_eq => exact absurd rfl (unmarked mark_eq)

/-! ## Signs -/

theorem Denotes.head?_ne (h : Denotes cs m) : cs.head? ≠ some '-' := by
  cases h with
  | decimal _ digits =>
    intro minus
    have := digits '-' (List.mem_of_head? minus)
    cases this
  | hexadecimal => simp

theorem DenotesMarked.head?_ne (h : DenotesMarked cs m) : cs.head? ≠ some '-' := by
  cases h with
  | again => simp

/-- The sign is the one that is split off, as no numeral starts with a minus. -/
theorem signed_iff {denotes : List Char → Nat → Prop}
    (unsigned : ∀ cs m, denotes cs m → cs.head? ≠ some '-') :
    Signed denotes cs negative m ↔
      negative = (splitSign cs).1 ∧ denotes (splitSign cs).2 m := by
  constructor
  · intro signed
    cases signed with
    | minus magnitude => exact ⟨rfl, magnitude⟩
    | plain magnitude =>
      unfold splitSign
      split
      case h_1 => exact absurd rfl (unsigned _ _ magnitude)
      case h_2 => exact ⟨rfl, magnitude⟩
  · intro split
    unfold splitSign at split
    split at split
    case h_1 =>
      obtain ⟨rfl, magnitude⟩ := split
      exact .minus magnitude
    case h_2 =>
      obtain ⟨rfl, magnitude⟩ := split
      exact .plain magnitude

theorem read_eq_ok :
    read text = .ok n ↔ ∃ m, readMagnitude text (splitSign text.toList).2 = .ok m ∧
      n = ofSign (splitSign text.toList).1 m := by
  simp [read, bind_eq_ok, pure, Except.pure, ofSign, eq_comm (a := n)]

/-- An integer is read with sign and magnitude from the texts that spell it, and from
    those that would if their second mark were not there. -/
theorem read_eq_ok_iff :
    read text = .ok n ↔ ∃ negative m,
      (Spells text.toList negative m ∨ SpellsMarked text.toList negative m) ∧
        n = ofSign negative m := by
  simp only [read_eq_ok, readMagnitude_eq_ok, Spells, SpellsMarked,
    signed_iff fun _ _ => Denotes.head?_ne, signed_iff fun _ _ => DenotesMarked.head?_ne]
  constructor
  · intro read
    obtain ⟨m, denotes, rfl⟩ := read
    refine ⟨_, m, denotes.imp (fun h => ⟨⟨rfl, h.1⟩, h.2⟩) fun h => ⟨rfl, h⟩, rfl⟩
  · intro spelled
    obtain ⟨negative, m, ⟨⟨rfl, denotes⟩, fits⟩ | ⟨rfl, denotes⟩, rfl⟩ := spelled
    · exact ⟨m, .inl ⟨denotes, fits⟩, rfl⟩
    · exact ⟨m, .inr denotes, rfl⟩

/-! ## Texts of one integer only -/

theorem Denotes.unique {m' : Nat} (h : Denotes cs m) (h' : Denotes cs m') : m = m' := by
  cases h with
  | decimal _ digits =>
    cases h' with
    | decimal => rfl
    | hexadecimal mark_eq => rcases mark_eq with rfl | rfl <;> simp at digits
  | hexadecimal mark_eq _ _ digits =>
    cases h' with
    | decimal _ digits' => rcases mark_eq with rfl | rfl <;> simp at digits'
    | hexadecimal _ _ _ digits' =>
      rw [Option.some.inj ((hexDigits_iff.1 digits).symm.trans (hexDigits_iff.1 digits'))]

theorem signed_unique {negative' : Bool} {m' : Nat} (h : Signed Denotes cs negative m)
    (h' : Signed Denotes cs negative' m') : negative = negative' ∧ m = m' := by
  obtain ⟨rfl, denotes⟩ := (signed_iff fun _ _ => Denotes.head?_ne).1 h
  obtain ⟨rfl, denotes'⟩ := (signed_iff fun _ _ => Denotes.head?_ne).1 h'
  exact ⟨rfl, denotes.unique denotes'⟩

/-- No text with a second mark is a numeral. -/
theorem not_signed_of_marked {negative' : Bool} {m' : Nat} (h : SpellsMarked cs negative m) :
    ¬ Signed Denotes cs negative' m' := by
  intro signed
  obtain ⟨-, marked⟩ := (signed_iff fun _ _ => DenotesMarked.head?_ne).1 h
  obtain ⟨-, denotes⟩ := (signed_iff fun _ _ => Denotes.head?_ne).1 signed
  generalize (splitSign cs).2 = ds at marked denotes
  cases marked with
  | again mark_eq _ _ =>
    cases denotes with
    | decimal _ digits => rcases mark_eq with rfl | rfl <;> simp at digits
    | hexadecimal _ _ _ digits => exact digits.unmarked.1 (by simp)

end Integer

/-! ## Values -/

namespace Json
variable {v : Json} {n : Int}

/-- The text that a value gives an integer in: of a string what is left without the blanks
    around it. -/
def integerText? : Json → Option (List Char)
  | number t => some t.toList
  | string s => some (Text.trimList s.toList)
  | _ => none

/-- The value spells an integer of this sign and magnitude. -/
def SpellsInteger (v : Json) (negative : Bool) (m : Nat) : Prop :=
  ∃ cs ∈ v.integerText?, Integer.Spells cs negative m

/-- The value would spell an integer if its second mark were not there. -/
def SpellsMarkedInteger (v : Json) (negative : Bool) (m : Nat) : Prop :=
  ∃ cs ∈ v.integerText?, Integer.SpellsMarked cs negative m

theorem asInteger_eq_ok_iff :
    v.asInteger = .ok n ↔ ∃ negative m,
      (v.SpellsInteger negative m ∨ v.SpellsMarkedInteger negative m) ∧
        n = Integer.ofSign negative m := by
  cases v with
  | number t =>
    simp [asInteger, mapError_eq_ok, Integer.read_eq_ok_iff, SpellsInteger, SpellsMarkedInteger,
      integerText?]
  | string s =>
    simp [asInteger, mapError_eq_ok, Integer.read_eq_ok_iff, SpellsInteger, SpellsMarkedInteger,
      integerText?, Text.trim]
  | _ => simp [asInteger, SpellsInteger, SpellsMarkedInteger, integerText?]

theorem not_spellsInteger_of_marked {negative negative' : Bool} {m m' : Nat}
    (h : v.SpellsMarkedInteger negative m) : ¬ v.SpellsInteger negative' m' := by
  intro spelled
  obtain ⟨cs, hcs, marked⟩ := h
  obtain ⟨cs', hcs', spelled⟩ := spelled
  cases Option.mem_unique hcs hcs'
  exact Integer.not_signed_of_marked marked spelled.1

/-- An integer is read with sign and magnitude from the values that spell it, and from those
    that would if their second mark were not there; every other value is malformed. So
    exactly where a value has no second mark does the grammar decide. -/
theorem asInteger_grammar (v : Json) (type : String) :
    (∀ n, v.asInteger = .ok n ↔ ∃ negative m,
        (v.SpellsInteger negative m ∨ v.SpellsMarkedInteger negative m) ∧
          n = Integer.ofSign negative m) ∧
      ((∃ reason, v.asInteger.mapError (Fault.malformed type) = .error (.malformed type reason)) ↔
        ∀ negative m, ¬ v.SpellsInteger negative m ∧ ¬ v.SpellsMarkedInteger negative m) ∧
      ((∀ n, v.asInteger = .ok n ↔
          ∃ negative m, v.SpellsInteger negative m ∧ n = Integer.ofSign negative m) ↔
        ∀ negative m, ¬ v.SpellsMarkedInteger negative m) := by
  refine ⟨fun n => asInteger_eq_ok_iff, ?_, ?_⟩
  · cases hv : v.asInteger with
    | ok n =>
      obtain ⟨negative, m, spelled, -⟩ := asInteger_eq_ok_iff.1 hv
      refine iff_of_false (by simp [Except.mapError]) fun none => ?_
      exact spelled.elim (none negative m).1 (none negative m).2
    | error reason =>
      refine iff_of_true ⟨reason, rfl⟩ fun negative m => not_or.1 fun spelled => ?_
      have := asInteger_eq_ok_iff.2 ⟨negative, m, spelled, rfl⟩
      rw [hv] at this
      cases this
  · constructor
    · intro decides negative m marked
      have read := asInteger_eq_ok_iff.2 ⟨negative, m, .inr marked, rfl⟩
      obtain ⟨_, _, spelled, -⟩ := (decides _).1 read
      exact not_spellsInteger_of_marked marked spelled
    · intro unmarked n
      simp only [asInteger_eq_ok_iff, unmarked, or_false]

/-- A second mark is passed over: this text is read as one. -/
theorem second_mark_accepted :
    (string "0x0x1").asInteger = .ok 1 ∧
      ¬ ∃ negative m, (string "0x0x1").SpellsInteger negative m := by
  have digits : Integer.HexDigits ['1'] [1] := .cons rfl .nil
  have marked : (string "0x0x1").SpellsMarkedInteger false 1 :=
    ⟨['0', 'x', '0', 'x', '1'], by decide, .plain (.again (.inl rfl) (by decide) digits)⟩
  refine ⟨by decide, fun spelled => ?_⟩
  obtain ⟨_, _, spelled⟩ := spelled
  exact not_spellsInteger_of_marked marked spelled

end Json
end TypedMessage
