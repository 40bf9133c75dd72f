import TypedMessage.Slot

/- What the word of a slot says about the slot. `hashed` lists the byte strings
   that are hashed on the way to a word, and the list is complete: a hash that
   agrees on them gives the same word (`value_congr`). Two slots with one word
   are the same slot, or two of these byte strings have one hash, or one of them
   has the zero word as its hash (`eq_or_collides`). Nothing is assumed of the
   hash; what is assumed of the slots is that they stand in the same place of two
   encodings of one type (`Aligned`). -/
namespace TypedMessage

/-- Among these byte strings two different ones have the same hash, or one has
    the zero word as its hash. -/
def Collides (h : Hash) (bss : List Bytes) : Prop :=
  (∃ a ∈ bss, ∃ b ∈ bss, a ≠ b ∧ h a = h b) ∨ ∃ a ∈ bss, h a = .zero

namespace Collides
variable {h : Hash} {bss css : List Bytes}

theorem mono (hs : bss ⊆ css) : Collides h bss → Collides h css := by
  intro hc
  rcases hc with ⟨a, ha, b, hb, hne, heq⟩ | ⟨a, ha, hz⟩
  · exact .inl ⟨a, hs ha, b, hs hb, hne, heq⟩
  · exact .inr ⟨a, hs ha, hz⟩

theorem append {ass dss : List Bytes} (ha : ass ⊆ css) (hb : bss ⊆ dss) :
    Collides h (ass ++ bss) → Collides h (css ++ dss) :=
  mono (List.append_subset.2 ⟨List.Subset.trans ha (List.subset_append_left _ _),
    List.Subset.trans hb (List.subset_append_right _ _)⟩)

theorem of_zero {a : Bytes} (ha : a ∈ bss) (hz : h a = .zero) : Collides h bss :=
  .inr ⟨a, ha, hz⟩

/-- Two byte strings with one hash are the same, or they collide. -/
theorem eq_or {a b : Bytes} (ha : a ∈ bss) (hb : b ∈ bss) (heq : h a = h b) :
    a = b ∨ Collides h bss := by
  by_cases hab : a = b
  · exact .inl hab
  · exact .inr (.inl ⟨a, ha, b, hb, hab, heq⟩)

end Collides

namespace Slot
variable {h k : Hash}

/-! ## What is hashed -/

mutual

/-- The byte strings that are hashed on the way to the word of a slot. -/
def hashed (h : Hash) : Slot → List Bytes
  | word _ => []
  | content bs => [bs]
  | group parts => concat h parts :: hashedParts h parts

/-- The byte strings that are hashed on the way to the words of slots. -/
def hashedParts (h : Hash) : List Slot → List Bytes
  | [] => []
  | p :: ps => hashed h p ++ hashedParts h ps

end

mutual

theorem value_congr : ∀ p : Slot, (∀ bs ∈ p.hashed h, h bs = k bs) → p.value h = p.value k
  | word _, _ => rfl
  | content bs, agree => agree bs List.mem_cons_self
  | group ps, agree => by
    simp only [hashed, List.forall_mem_cons] at agree
    simp only [value, ← concat_congr ps agree.2, agree.1]

theorem concat_congr : ∀ ps : List Slot,
    (∀ bs ∈ hashedParts h ps, h bs = k bs) → concat h ps = concat k ps
  | [], _ => rfl
  | p :: ps, agree => by
    simp only [hashedParts, List.forall_mem_append] at agree
    simp only [concat, value_congr p agree.1, concat_congr ps agree.2]

end

/-! ## Equal words -/

/-- Two slots that stand in the same place of two encodings of one type: both are
    words, both hashes of content, or both hashes of such slots; or one is the zero
    word of a field that is absent. Two arrays may differ in length, so only the
    slots up to the end of the shorter group stand in the same place. -/
inductive Aligned : Slot → Slot → Prop
  | word (a b : Word) : Aligned (word a) (word b)
  | content (a b : Bytes) : Aligned (content a) (content b)
  | group {ps qs : List Slot} (parts : ∀ p q, (p, q) ∈ ps.zip qs → Aligned p q) :
      Aligned (group ps) (group qs)
  | absentLeft (q : Slot) : Aligned (.word .zero) q
  | absentRight (p : Slot) : Aligned p (.word .zero)

/-- The zero word is a slot's word only if it is the slot, or something hashes to it. -/
theorem eq_zero_or_collides {p : Slot} (hz : p.value h = .zero) :
    p = .word .zero ∨ Collides h (p.hashed h) := by
  cases p with
  | word w => exact .inl (congrArg _ hz)
  | content bs => exact .inr (.of_zero List.mem_cons_self hz)
  | group ps => exact .inr (.of_zero List.mem_cons_self hz)

theorem concat_cons_inj {p q : Slot} {ps qs : List Slot}
    (hc : concat h (p :: ps) = concat h (q :: qs)) :
    p.value h = q.value h ∧ concat h ps = concat h qs := by
  have hl : (p.value h).bytes.length = (q.value h).bytes.length := by
    rw [Word.length_bytes, Word.length_bytes]
  obtain ⟨hv, hps⟩ := List.append_inj hc hl
  exact ⟨Word.ext' hv, hps⟩

theorem concat_cons_ne_nil (p : Slot) (ps : List Slot) : concat h (p :: ps) ≠ [] := by
  intro hc
  have := congrArg List.length hc
  simp [concat, Word.length_bytes] at this

theorem parts_eq_or_collides : ∀ {ps qs : List Slot},
    (∀ p q, (p, q) ∈ ps.zip qs → p.value h = q.value h →
      p = q ∨ Collides h (p.hashed h ++ q.hashed h)) →
    concat h ps = concat h qs →
    ps = qs ∨ Collides h (hashedParts h ps ++ hashedParts h qs)
  | [], [], _, _ => .inl rfl
  | [], q :: qs, _, hc => absurd hc.symm (concat_cons_ne_nil q qs)
  | p :: ps, [], _, hc => absurd hc (concat_cons_ne_nil p ps)
  | p :: ps, q :: qs, ih, hc => by
    obtain ⟨hv, hps⟩ := concat_cons_inj hc
    have tail := parts_eq_or_collides (fun a b hm => ih a b (List.mem_cons_of_mem _ hm)) hps
    rcases ih p q List.mem_cons_self hv, tail with ⟨rfl | hcol, rfl | hcol'⟩
    · exact .inl rfl
    · exact .inr (hcol'.append (List.subset_append_right _ _) (List.subset_append_right _ _))
    · exact .inr (hcol.append (List.subset_append_left _ _) (List.subset_append_left _ _))
    · exact .inr (hcol.append (List.subset_append_left _ _) (List.subset_append_left _ _))

/-- Aligned slots with one word are the same slot, or what was hashed collides. -/
theorem eq_or_collides {p q : Slot} (al : Aligned p q) (hv : p.value h = q.value h) :
    p = q ∨ Collides h (p.hashed h ++ q.hashed h) := by
  induction al with
  | word a b => exact .inl (congrArg _ hv)
  | content a b =>
    have left : a ∈ [a, b] := List.mem_cons_self
    have right : b ∈ [a, b] := List.mem_cons_of_mem _ List.mem_cons_self
    rcases Collides.eq_or left right hv with rfl | hcol
    · exact .inl rfl
    · exact .inr hcol
  | absentLeft q =>
    rcases eq_zero_or_collides hv.symm with rfl | hcol
    · exact .inl rfl
    · exact .inr (hcol.mono (List.subset_append_right _ _))
  | absentRight p =>
    rcases eq_zero_or_collides hv with rfl | hcol
    · exact .inl rfl
    · exact .inr (hcol.mono (List.subset_append_left _ _))
  | @group ps qs _ ih =>
    have mem_left : concat h ps ∈ (group ps).hashed h ++ (group qs).hashed h :=
      List.mem_append_left _ List.mem_cons_self
    have mem_right : concat h qs ∈ (group ps).hashed h ++ (group qs).hashed h :=
      List.mem_append_right _ List.mem_cons_self
    -- The two concatenations are hashed themselves, so they agree unless they collide.
    rcases Collides.eq_or mem_left mem_right hv with hc | hcol
    · rcases parts_eq_or_collides ih hc with rfl | hcol
      · exact .inl rfl
      · exact .inr (hcol.append (List.subset_cons_self _ _) (List.subset_cons_self _ _))
    · exact .inr hcol

end Slot
end TypedMessage
