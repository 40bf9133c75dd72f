import TypedMessage.Proofs.Layout
import TypedMessage.Json.Reader
import TypedMessage.Json.Printer
import Mathlib.Data.List.TakeWhile

/- Numbers and strings, written and read. `Numeral` is the grammar of the numbers that
   the reader gives, where an exponent has a small letter and a sign; the reader
   accepts more, but what it gives it gives again (`numeral_of_readNumber`,
   `readNumber_append`). A printed string is read as the string it was printed from
   (`readString_append`). -/
namespace TypedMessage.Json

/-! ## Digits -/

/-- Every character is a decimal digit. -/
def AllDigits (ds : List Char) : Prop := ∀ d ∈ ds, d.isDigit = true

/-- No digit comes next. -/
def NoDigit (rest : List Char) : Prop := ∀ c ∈ rest.head?, c.isDigit = false

theorem allDigits_takeWhile (s : List Char) : AllDigits (s.takeWhile Char.isDigit) :=
  fun _ hd => List.mem_takeWhile_imp hd

theorem takeWhile_digits {ds rest : List Char} (hds : AllDigits ds) (hrest : NoDigit rest) :
    (ds ++ rest).takeWhile Char.isDigit = ds := by
  rw [List.takeWhile_append_of_pos hds]
  cases rest with
  | nil => simp
  | cons c rest => simp [hrest c rfl]

theorem dropWhile_digits {ds rest : List Char} (hds : AllDigits ds) (hrest : NoDigit rest) :
    (ds ++ rest).dropWhile Char.isDigit = rest := by
  rw [List.dropWhile_append_of_pos hds]
  cases rest with
  | nil => rfl
  | cons c rest => simp [hrest c rfl]

/-! ## Numbers -/

/-- No number goes on with this text. -/
def NumberEnds (rest : List Char) : Prop :=
  ∀ c ∈ rest.head?, c.isDigit = false ∧ c ≠ '.' ∧ c ≠ 'e' ∧ c ≠ 'E'

theorem NumberEnds.noDigit {rest : List Char} (h : NumberEnds rest) : NoDigit rest :=
  fun c hc => (h c hc).1

/-- An exponent with a small letter and a sign, or nothing. -/
inductive Exponent : List Char → Prop
  | absent : Exponent []
  | signed {sign d : Char} {ds : List Char} (sign_eq : sign = '+' ∨ sign = '-')
      (digits : AllDigits (d :: ds)) : Exponent ('e' :: sign :: d :: ds)

/-- A fraction, or nothing, and an exponent. -/
inductive Fraction : List Char → Prop
  | absent {e : List Char} (exponent : Exponent e) : Fraction e
  | point {d : Char} {ds e : List Char} (digits : AllDigits (d :: ds)) (exponent : Exponent e) :
      Fraction ('.' :: d :: ds ++ e)

/-- A number without a sign. -/
inductive Magnitude : List Char → Prop
  | zero {f : List Char} (fraction : Fraction f) : Magnitude ('0' :: f)
  | whole {d : Char} {ds f : List Char} (nonzero : d ≠ '0') (digits : AllDigits (d :: ds))
      (fraction : Fraction f) : Magnitude (d :: ds ++ f)

/-- A number, as the reader gives it. -/
inductive Numeral : List Char → Prop
  | plain {m : List Char} (magnitude : Magnitude m) : Numeral m
  | negative {m : List Char} (magnitude : Magnitude m) : Numeral ('-' :: m)

section Numbers
variable {atEnd : Fault} {c : Char} {s e f m rest : List Char}

/-! ### The reader, clause by clause -/

/-- The sign of an exponent, a plus where there is none, and the text after it. -/
def exponentSign : List Char → Char × List Char
  | '-' :: s => ('-', s)
  | '+' :: s => ('+', s)
  | s => ('+', s)

theorem exponentSign_cases (s : List Char) :
    (exponentSign s).1 = '+' ∨ (exponentSign s).1 = '-' := by
  unfold exponentSign
  split
  · exact .inr rfl
  · exact .inl rfl
  · exact .inl rfl

theorem readExponent_cons (atEnd : Fault) (c : Char) (s : List Char) :
    readExponent atEnd (c :: s) =
      if c = 'e' ∨ c = 'E' then
        (readExponentDigits atEnd (exponentSign s).2).map
          fun p => ('e' :: (exponentSign s).1 :: p.1, p.2)
      else .ok ([], c :: s) := by
  rw [← bind_ok_eq_map]
  rfl

theorem readFraction_of_head (h : s.head? ≠ some '.') :
    readFraction atEnd s = readExponent atEnd s := by
  rw [readFraction.eq_def]
  split
  · simp at h
  · rfl

theorem readFraction_point {d : Char} {ds : List Char} (h : s.takeWhile Char.isDigit = d :: ds) :
    readFraction atEnd ('.' :: s) =
      (readExponent atEnd (s.dropWhile Char.isDigit)).map
        fun p => ('.' :: d :: ds ++ p.1, p.2) := by
  rw [← bind_ok_eq_map, readFraction, h]
  rfl

theorem readFraction_point_fails (atEnd : Fault) (h : s.takeWhile Char.isDigit = []) :
    ∃ e, readFraction atEnd ('.' :: s) = .error e := by
  rw [readFraction, h]
  cases s.dropWhile Char.isDigit with
  | nil => exact ⟨_, rfl⟩
  | cons c s => exact ⟨_, rfl⟩

theorem readMagnitude_zero (h : NoDigit s) :
    readMagnitude atEnd ('0' :: s) =
      (readFraction atEnd s).map fun p => ('0' :: p.1, p.2) := by
  have hs : s.head?.any Char.isDigit = false := by
    cases s with
    | nil => rfl
    | cons c s => exact h c rfl
  rw [← bind_ok_eq_map, readMagnitude, hs]
  rfl

theorem readMagnitude_whole (hc : c.isDigit = true) (h0 : c ≠ '0') :
    readMagnitude atEnd (c :: s) =
      (readFraction atEnd (s.dropWhile Char.isDigit)).map
        fun p => (c :: s.takeWhile Char.isDigit ++ p.1, p.2) := by
  rw [← bind_ok_eq_map, readMagnitude, if_pos hc, if_neg h0]
  rfl

/-- A fraction that is read has no point, or a digit after its point. -/
theorem readFraction_clause (h : readFraction atEnd s = .ok (f, rest)) :
    s.head? ≠ some '.' ∨ ∃ s' d ds, s = '.' :: s' ∧ s'.takeWhile Char.isDigit = d :: ds := by
  by_cases hs : s.head? = some '.'
  case neg => exact .inl hs
  obtain ⟨s', rfl⟩ := List.head?_eq_some_iff.1 hs
  cases hds : s'.takeWhile Char.isDigit with
  | nil =>
    obtain ⟨e, he⟩ := readFraction_point_fails atEnd hds
    rw [he] at h
    cases h
  | cons d ds => exact .inr ⟨s', d, ds, rfl, hds⟩

/-- A magnitude that is read starts with another digit than zero, or is zero up to its
    fraction. -/
theorem readMagnitude_clause (h : readMagnitude atEnd s = .ok (m, rest)) :
    (∃ s', s = '0' :: s' ∧ NoDigit s') ∨ ∃ c s', s = c :: s' ∧ c.isDigit = true ∧ c ≠ '0' := by
  cases s with
  | nil => cases h
  | cons c s =>
    rw [readMagnitude] at h
    split at h
    case isFalse => cases h
    case isTrue hc =>
      split at h
      case isFalse h0 => exact .inr ⟨c, s, rfl, hc, h0⟩
      case isTrue h0 =>
        split at h
        case isTrue => cases h
        case isFalse hd =>
          exact .inl ⟨s, by rw [h0], by simpa [NoDigit, Option.any_eq_false] using hd⟩

/-! ### What is read is a number -/

theorem readExponentDigits_eq_ok (h : readExponentDigits atEnd s = .ok (e, rest)) :
    ∃ d ds, e = d :: ds ∧ AllDigits (d :: ds) := by
  cases s with
  | nil => cases h
  | cons c s =>
    rw [readExponentDigits] at h
    split at h
    case isTrue hc =>
      obtain ⟨rfl, rfl⟩ := Prod.mk.inj (Except.ok.inj h)
      exact ⟨c, _, rfl, List.forall_mem_cons.2 ⟨hc, allDigits_takeWhile s⟩⟩
    case isFalse => cases h

theorem exponent_of_readExponent (h : readExponent atEnd s = .ok (e, rest)) : Exponent e := by
  cases s with
  | nil =>
    obtain ⟨rfl, -⟩ := Prod.mk.inj (Except.ok.inj h)
    exact .absent
  | cons c s =>
    rw [readExponent_cons] at h
    split at h
    case isTrue =>
      obtain ⟨⟨ds, s'⟩, hds, hcs⟩ := map_eq_ok.1 h
      obtain ⟨rfl, rfl⟩ := Prod.mk.inj hcs
      obtain ⟨d, ds, rfl, digits⟩ := readExponentDigits_eq_ok hds
      exact .signed (exponentSign_cases s) digits
    case isFalse =>
      obtain ⟨rfl, -⟩ := Prod.mk.inj (Except.ok.inj h)
      exact .absent

theorem fraction_of_readFraction (h : readFraction atEnd s = .ok (f, rest)) : Fraction f := by
  rcases readFraction_clause h with hs | ⟨s', d, ds, rfl, hds⟩
  · rw [readFraction_of_head hs] at h
    exact .absent (exponent_of_readExponent h)
  · rw [readFraction_point hds] at h
    obtain ⟨⟨e, t⟩, he, hf⟩ := map_eq_ok.1 h
    obtain ⟨rfl, rfl⟩ := Prod.mk.inj hf
    exact .point (hds ▸ allDigits_takeWhile s') (exponent_of_readExponent he)

theorem magnitude_of_readMagnitude (h : readMagnitude atEnd s = .ok (m, rest)) : Magnitude m := by
  rcases readMagnitude_clause h with ⟨s', rfl, hs⟩ | ⟨c, s', rfl, hc, h0⟩
  · rw [readMagnitude_zero hs] at h
    obtain ⟨⟨f, t⟩, hf, hm⟩ := map_eq_ok.1 h
    obtain ⟨rfl, rfl⟩ := Prod.mk.inj hm
    exact .zero (fraction_of_readFraction hf)
  · rw [readMagnitude_whole hc h0] at h
    obtain ⟨⟨f, t⟩, hf, hm⟩ := map_eq_ok.1 h
    obtain ⟨rfl, rfl⟩ := Prod.mk.inj hm
    exact .whole h0 (List.forall_mem_cons.2 ⟨hc, allDigits_takeWhile s'⟩)
      (fraction_of_readFraction hf)

theorem numeral_of_readNumber {t : String} (h : readNumber atEnd s = .ok (t, rest)) :
    Numeral t.toList := by
  rw [readNumber.eq_def] at h
  split at h
  · obtain ⟨⟨m, s'⟩, hm, ht⟩ := bind_eq_ok.1 h
    obtain ⟨rfl, -⟩ := Prod.mk.inj (Except.ok.inj ht)
    rw [String.toList_ofList]
    exact .negative (magnitude_of_readMagnitude hm)
  · obtain ⟨⟨m, s'⟩, hm, ht⟩ := bind_eq_ok.1 h
    obtain ⟨rfl, -⟩ := Prod.mk.inj (Except.ok.inj ht)
    rw [String.toList_ofList]
    exact .plain (magnitude_of_readMagnitude hm)

/-! ### A number is read as it is -/

theorem readExponent_append (he : Exponent e) (hrest : NumberEnds rest) :
    readExponent atEnd (e ++ rest) = .ok (e, rest) := by
  cases he with
  | absent =>
    cases rest with
    | nil => rfl
    | cons c rest =>
      obtain ⟨-, -, he, hE⟩ := hrest c rfl
      rw [List.nil_append, readExponent_cons, if_neg (by simp [he, hE])]
  | @signed sign d ds sign_eq digits =>
    have hsign : exponentSign (sign :: d :: ds ++ rest) = (sign, d :: ds ++ rest) := by
      rcases sign_eq with rfl | rfl <;> rfl
    obtain ⟨hd, hds⟩ := List.forall_mem_cons.1 digits
    have hread : readExponentDigits atEnd (d :: ds ++ rest) = .ok (d :: ds, rest) := by
      rw [List.cons_append, readExponentDigits, if_pos hd, takeWhile_digits hds hrest.noDigit,
        dropWhile_digits hds hrest.noDigit]
    rw [List.cons_append, readExponent_cons, if_pos (.inl rfl), hsign, hread]
    rfl

theorem Exponent.noDigit (he : Exponent e) (hrest : NumberEnds rest) : NoDigit (e ++ rest) := by
  cases he with
  | absent => exact hrest.noDigit
  | signed => exact fun c hc => by cases hc; rfl

theorem Exponent.head_ne_point (he : Exponent e) (hrest : NumberEnds rest) :
    (e ++ rest).head? ≠ some '.' := by
  cases he with
  | absent => exact fun hpoint => (hrest '.' hpoint).2.1 rfl
  | signed => simp

theorem readFraction_append (hf : Fraction f) (hrest : NumberEnds rest) :
    readFraction atEnd (f ++ rest) = .ok (f, rest) := by
  cases hf with
  | absent exponent =>
    rw [readFraction_of_head (exponent.head_ne_point hrest), readExponent_append exponent hrest]
  | @point d ds e digits exponent =>
    have hnext := exponent.noDigit hrest
    rw [List.append_assoc, List.cons_append, readFraction_point (takeWhile_digits digits hnext),
      dropWhile_digits digits hnext, readExponent_append exponent hrest]
    rfl

theorem Fraction.noDigit (hf : Fraction f) (hrest : NumberEnds rest) : NoDigit (f ++ rest) := by
  cases hf with
  | absent exponent => exact exponent.noDigit hrest
  | point => exact fun c hc => by cases hc; rfl

theorem readMagnitude_append (hm : Magnitude m) (hrest : NumberEnds rest) :
    readMagnitude atEnd (m ++ rest) = .ok (m, rest) := by
  cases hm with
  | zero fraction =>
    rw [List.cons_append, readMagnitude_zero (fraction.noDigit hrest),
      readFraction_append fraction hrest]
    rfl
  | @whole d ds f nonzero digits fraction =>
    obtain ⟨hd, hds⟩ := List.forall_mem_cons.1 digits
    have hnext := fraction.noDigit hrest
    rw [List.append_assoc, List.cons_append, readMagnitude_whole hd nonzero,
      takeWhile_digits hds hnext, dropWhile_digits hds hnext, readFraction_append fraction hrest]
    rfl

theorem Magnitude.exists_digit (hm : Magnitude m) : ∃ d ds, m = d :: ds ∧ d.isDigit = true := by
  cases hm with
  | zero => exact ⟨_, _, rfl, rfl⟩
  | whole _ digits => exact ⟨_, _, rfl, digits _ List.mem_cons_self⟩

/-- A number that the reader gave is read again as the same number, in front of any text
    that does not go on with it. -/
theorem readNumber_append (atEnd : Fault) {t : String} (ht : Numeral t.toList)
    (hrest : NumberEnds rest) :
    readNumber atEnd (t.toList ++ rest) = .ok (t, rest) := by
  generalize hcs : t.toList = cs at ht
  have hback : String.ofList cs = t := by rw [← hcs, String.ofList_toList]
  cases ht with
  | plain magnitude =>
    -- A number without a sign starts with a digit, which is no minus.
    obtain ⟨d, ds, rfl, hd⟩ := magnitude.exists_digit
    rw [List.cons_append, readNumber.eq_def]
    split
    case h_1 heq =>
      cases heq
      cases hd
    case h_2 =>
      rw [← List.cons_append, readMagnitude_append magnitude hrest, ← hback]
      rfl
  | negative magnitude =>
    rw [List.cons_append, readNumber, readMagnitude_append magnitude hrest, ← hback]
    rfl

theorem Numeral.exists_start {cs : List Char} (h : Numeral cs) :
    ∃ c ds, cs = c :: ds ∧ startsNumber c = true := by
  cases h with
  | plain magnitude =>
    obtain ⟨d, ds, rfl, hd⟩ := magnitude.exists_digit
    exact ⟨d, ds, rfl, by simp [startsNumber, hd]⟩
  | negative => exact ⟨_, _, rfl, rfl⟩

end Numbers

/-! ## Strings -/

section Strings
variable {unicode : Read Char} {n : Nat} {c d : Char} {cs rest : List Char}

/-- The character, read in front of what is read of the rest. -/
def withChar (c : Char) (x : Except Fault (List Char × List Char)) :
    Except Fault (List Char × List Char) :=
  x.map fun p => (c :: p.1, p.2)

theorem readStringBody_escape (h : readEscape unicode cs = .ok (c, rest)) :
    readStringBody unicode (n + 1) ('\\' :: cs) =
      withChar c (readStringBody unicode n rest) := by
  rw [readStringBody, if_neg (by decide), if_pos rfl, h, withChar, ← bind_ok_eq_map]
  rfl

theorem readEscape_short (h : shortEscape? d = some c) :
    readEscape unicode (d :: rest) = .ok (c, rest) := by
  rw [readEscape.eq_def]
  split
  case h_1 heq => cases heq
  case h_2 heq =>
    obtain ⟨rfl, -⟩ := List.cons.inj heq
    cases h
  case h_3 heq =>
    obtain ⟨rfl, rfl⟩ := List.cons.inj heq
    rw [h]

/-- The four digits of a control character spell it. -/
theorem readUnicode_controlDigits (hc : c.toNat < 0x20) :
    readUnicode ('0' :: '0' :: controlDigits c ++ rest) = .ok (c, rest) := by
  have hhigh : Hex.digitValue? (Hex.digit (c.toNat / 16)) = some (c.toNat / 16) :=
    Hex.digitValue?_digit _ (by omega)
  have hlow : Hex.digitValue? (Hex.digit (c.toNat % 16)) = some (c.toNat % 16) :=
    Hex.digitValue?_digit _ (by omega)
  have hzero : Hex.digitValue? '0' = some 0 := by decide
  have hvalue : Hex.value [0, 0, c.toNat / 16, c.toNat % 16] = c.toNat := by
    simp only [Hex.value, List.foldl_cons, List.foldl_nil]
    omega
  have hfour : readFourDigits ('0' :: '0' :: controlDigits c ++ rest) = .ok (c.toNat, rest) := by
    simp [readFourDigits, controlDigits, hzero, hhigh, hlow, hvalue]
  have htrailing : isTrailing c.toNat = false := by simp [isTrailing]; omega
  have hleading : isLeading c.toNat = false := by simp [isLeading]; omega
  rw [readUnicode, hfour]
  simp [bind, Except.bind, htrailing, hleading, Char.ofNat_toNat, pure, Except.pure]

/-- A character stands for itself, or it has an escape of its own, or the four digits
    of a control character. -/
theorem printChar_cases (c : Char) :
    (∃ d, shortEscape? d = some c ∧ printChar c = ['\\', d]) ∨
      (c.toNat < 0x20 ∧ printChar c = '\\' :: 'u' :: '0' :: '0' :: controlDigits c) ∨
      c ≠ '"' ∧ c ≠ '\\' ∧ ¬c.toNat < 0x20 ∧ printChar c = [c] := by
  by_cases hshort : c ∈ ['"', '\\', '\x08', '\t', '\n', '\x0c', '\r']
  · left
    simp only [List.mem_cons, List.not_mem_nil, or_false] at hshort
    rcases hshort with rfl | rfl | rfl | rfl | rfl | rfl | rfl <;> exact ⟨_, rfl, rfl⟩
  · right
    simp only [List.mem_cons, List.not_mem_nil, or_false, not_or] at hshort
    obtain ⟨hquote, hslash, hb, ht, hn, hf, hr⟩ := hshort
    rw [printChar, if_neg hquote, if_neg hslash, if_neg hb, if_neg ht, if_neg hn, if_neg hf,
      if_neg hr]
    by_cases hcontrol : c.toNat < 0x20
    · exact .inl ⟨hcontrol, by rw [if_pos hcontrol]; rfl⟩
    · exact .inr ⟨hquote, hslash, hcontrol, by rw [if_neg hcontrol]⟩

theorem readStringBody_plain (hquote : c ≠ '"') (hslash : c ≠ '\\') (hcontrol : ¬c.toNat < 0x20) :
    readStringBody unicode (n + 1) (c :: cs) = withChar c (readStringBody unicode n cs) := by
  rw [readStringBody, if_neg hquote, if_neg hslash, if_neg hcontrol, withChar, ← bind_ok_eq_map]
  rfl

theorem readStringBody_printChar (n : Nat) (c : Char) (rest : List Char) :
    readStringBody readUnicode (n + 1) (printChar c ++ rest) =
      withChar c (readStringBody readUnicode n rest) := by
  rcases printChar_cases c with ⟨d, hd, heq⟩ | ⟨hcontrol, heq⟩ | ⟨hquote, hslash, hcontrol, heq⟩
  · rw [heq]
    exact readStringBody_escape (readEscape_short hd)
  · rw [heq]
    exact readStringBody_escape (readUnicode_controlDigits hcontrol)
  · rw [heq]
    exact readStringBody_plain hquote hslash hcontrol

theorem readStringBody_append {cs : List Char} (hn : cs.length < n) :
    readStringBody readUnicode n (cs.flatMap printChar ++ '"' :: rest) = .ok (cs, rest) := by
  induction cs generalizing n with
  | nil =>
    obtain ⟨n, rfl⟩ := Nat.exists_eq_succ_of_ne_zero (Nat.ne_zero_of_lt hn)
    rfl
  | cons c cs ih =>
    obtain ⟨n, rfl⟩ := Nat.exists_eq_succ_of_ne_zero (Nat.ne_zero_of_lt hn)
    rw [List.flatMap_cons, List.append_assoc, readStringBody_printChar,
      ih (Nat.lt_of_succ_lt_succ hn)]
    rfl

theorem length_le_flatMap_printChar (cs : List Char) :
    cs.length ≤ (cs.flatMap printChar).length := by
  induction cs with
  | nil => exact Nat.le_refl 0
  | cons c cs ih =>
    have hc : 0 < (printChar c).length := by
      rcases printChar_cases c with ⟨d, -, heq⟩ | ⟨-, heq⟩ | ⟨-, -, -, heq⟩ <;> rw [heq] <;> simp
    rw [List.flatMap_cons, List.length_append, List.length_cons]
    omega

/-- A printed string is read as the string it was printed from. -/
theorem readString_append (s : String) (rest : List Char) :
    readString (s.toList.flatMap printChar ++ '"' :: rest) = .ok (s, rest) := by
  have hbound : s.toList.length < (s.toList.flatMap printChar ++ '"' :: rest).length := by
    have := length_le_flatMap_printChar s.toList
    rw [List.length_append, List.length_cons]
    omega
  rw [readString, readStringBody_append hbound]
  exact congrArg (fun t => Except.ok (t, rest)) String.ofList_toList

end Strings

end TypedMessage.Json
