import StateForge.Proofs.Decoding
import StateForge.Proofs.Text.Trimming

/-!
# Predicates as they are written

A predicate is written with any amount of white space around it and after its negation mark. Reading
takes off white space, one mark, and white space again, so three questions come up: whether a
predicate that was read is read back from what `Predicate.written` makes of it, whether white space
can make a difference, and which predicates can be read at all.

`parse_name` and `parse_mark` say what reading does, once for a name without a mark in front and
once for any text behind a mark. The mark is a character of its own, whatever bytes follow it, so
what stands behind it is trimmed as if it stood alone.
-/

set_option autoImplicit false

namespace StateForge

namespace Predicate

/-! ## What is read -/

/-- Only what trimming leaves is looked at. -/
theorem parse_congr {s t : Text} (h : s.trim = t.trim) : parse s = parse t := by
  rw [parse, parse, h]

/-- A name is read as it is. -/
theorem parse_name {name : Text} (hne : name ≠ []) (htrimmed : name.IsTrimmed)
    (hmark : name.head? ≠ some negationMark) : parse name = .ok ⟨name, false⟩ := by
  rw [parse, Text.trim_of_isTrimmed htrimmed]
  cases name with
  | nil => exact absurd rfl hne
  | cons b rest =>
    have hb : b ≠ negationMark := fun hb => hmark (congrArg some hb)
    simp only [if_neg hb]

/-- Behind a mark, only the end of a text has to be looked at. -/
theorem isTrimmed_mark {rest : Text} (h : ∀ r, rest.runes.getLast? = some r → r.isBlank = false) :
    Text.IsTrimmed (negationMark :: rest) := by
  have hrunes : Text.runes (negationMark :: rest) = .char '!' :: rest.runes :=
    Text.runes_encode_append '!' rest
  have hmark : Rune.isBlank (.char '!') = false := by decide
  refine ⟨fun r hr => ?_, fun r hr => ?_⟩
  · rw [hrunes, List.head?_cons, Option.some_inj] at hr
    rw [← hr, hmark]
  · rw [hrunes, List.getLast?_cons, Option.some_inj] at hr
    cases hlast : rest.runes.getLast? with
    | none => rw [← hr, hlast, Option.getD_none, hmark]
    | some last => rw [← hr, hlast, Option.getD_some, h last hlast]

/-- **Behind a mark, white space does not count**, and without anything else there is no
predicate. -/
theorem parse_mark (rest : Text) :
    parse (negationMark :: rest)
      = if rest.isBlank then .error (.emptyPredicate [negationMark])
        else .ok ⟨rest.trim, true⟩ := by
  by_cases hblank : rest.isBlank = true
  · have hmarked : Text.IsTrimmed [negationMark] := isTrimmed_mark (by simp [Text.runes])
    rw [if_pos hblank, ← List.singleton_append, parse_congr (Text.trim_append_blank hblank _),
      parse, Text.trim_of_isTrimmed hmarked]
    rfl
  · obtain ⟨before, after, hbefore, hafter, hrest⟩ := Text.exists_around rest
    have hcore : rest.trim ≠ [] := mt Text.trim_eq_nil_iff.mp hblank
    have hrunes := Text.runes_around hbefore (rfl : Text.isBlank [] = true) rest.trim
    rw [List.append_nil, Text.runes, List.append_nil] at hrunes
    have hmarked : Text.IsTrimmed (negationMark :: (before ++ rest.trim)) := by
      refine isTrimmed_mark fun r hr => (Text.isTrimmed_trim rest).last r ?_
      rw [hrunes, List.getLast?_append] at hr
      cases hlast : rest.trim.runes.getLast? with
      | some last => rwa [hlast, Option.some_or] at hr
      | none =>
        have hnil := List.getLast?_eq_none_iff.mp hlast
        exact absurd (by rw [← Text.ofRunes_runes rest.trim, hnil]; rfl) hcore
    have htrim : Text.trim (negationMark :: rest) = negationMark :: (before ++ rest.trim) := by
      have h := Text.trim_append_blank hafter (negationMark :: (before ++ rest.trim))
      rwa [List.cons_append, ← hrest, Text.trim_of_isTrimmed hmarked] at h
    -- the white space between the mark and the name goes when the name is trimmed on its own
    have hname : Text.trim (before ++ rest.trim) = rest.trim := by
      rw [Text.trim_blank_append hbefore, Text.trim_of_isTrimmed (Text.isTrimmed_trim rest)]
    rw [if_neg hblank, parse, htrim]
    simp only [if_true, hname, if_neg hcore]

/-! ## Reading back what is written -/

/-- **A predicate in order is read back from its own text.** -/
theorem parse_written {p : Predicate} (hp : p.IsProper) : parse p.written = .ok p := by
  cases hp with
  | always => rfl
  | named hname htrimmed hunmarked =>
    obtain ⟨name, negated⟩ := p
    cases negated with
    | false => exact parse_name hname htrimmed (hunmarked rfl)
    | true =>
      have hblank : ¬ name.isBlank = true := by
        rw [← Text.trim_eq_nil_iff, Text.trim_of_isTrimmed htrimmed]
        exact hname
      rw [written, if_pos rfl, parse_mark, if_neg hblank, Text.trim_of_isTrimmed htrimmed]

/-- What can be read is what is in order. -/
theorem exists_parse_iff {p : Predicate} : (∃ s, parse s = .ok p) ↔ p.IsProper :=
  ⟨fun ⟨_, h⟩ => isProper_of_parse h, fun hp => ⟨p.written, parse_written hp⟩⟩

/-- White space after a mark does not count. -/
theorem parse_mark_padded {gap : Text} (hgap : gap.isBlank = true) (rest : Text) :
    parse (negationMark :: (gap ++ rest)) = parse (negationMark :: rest) := by
  have htrim : (gap ++ rest).trim = rest.trim := Text.trim_blank_append hgap rest
  have hblank : (gap ++ rest).isBlank = rest.isBlank := by
    rw [Bool.eq_iff_iff, ← Text.trim_eq_nil_iff, htrim, Text.trim_eq_nil_iff]
  rw [parse_mark, parse_mark, htrim, hblank]

/-- Being in order, byte by byte: the name is there, does not start or end with the bytes of a
character of white space, and cannot be taken for a negation. -/
theorem isProper_iff {p : Predicate} :
    p.IsProper ↔ p = always ∨
      (p.name ≠ [] ∧
        (∀ c, isBlankChar c = true →
          ¬ String.utf8EncodeChar c <+: p.name ∧ ¬ String.utf8EncodeChar c <:+ p.name) ∧
        (p.negated = true ∨ ¬ [negationMark] <+: p.name)) := by
  have hmark : p.name.head? = some negationMark ↔ [negationMark] <+: p.name := by
    rw [List.head?_eq_some_iff]
    exact exists_congr fun rest => eq_comm
  rw [← Text.isTrimmed_iff, ← hmark]
  constructor
  · rintro (_ | ⟨hname, htrimmed, hunmarked⟩)
    · exact .inl rfl
    · refine .inr ⟨hname, htrimmed, ?_⟩
      cases hnegated : p.negated with
      | true => exact .inl rfl
      | false => exact .inr (hunmarked hnegated)
  · rintro (rfl | ⟨hname, htrimmed, hmarked⟩)
    · exact .always
    · refine .named hname htrimmed fun hnegated => ?_
      rcases hmarked with h | h
      · exact absurd (h.symm.trans hnegated) (by simp)
      · exact h

/-- **Predicates survive being written.** For any bytes: a predicate that was read is read back from
its own text. White space around the text, or after the mark, changes neither a predicate nor an
error. The predicates that can be read are the condition that always holds and those with a name
that has no white space at either end and, if it is not negated, does not start with the mark. -/
theorem parse_roundTrip :
    (∀ s p, parse s = .ok p → parse p.written = .ok p) ∧
    (∀ s before after : Text, before.isBlank = true → after.isBlank = true →
      parse (before ++ s ++ after) = parse s) ∧
    (∀ lead gap rest : Text, lead.isBlank = true → gap.isBlank = true →
      parse (lead ++ negationMark :: (gap ++ rest)) = parse (lead ++ negationMark :: rest)) ∧
    ∀ p, (∃ s, parse s = .ok p) ↔ p = always ∨
      (p.name ≠ [] ∧
        (∀ c, isBlankChar c = true →
          ¬ String.utf8EncodeChar c <+: p.name ∧ ¬ String.utf8EncodeChar c <:+ p.name) ∧
        (p.negated = true ∨ ¬ [negationMark] <+: p.name)) := by
  refine ⟨fun s p h => parse_written (isProper_of_parse h),
    fun s before after hbefore hafter => parse_congr (Text.trim_padded hbefore hafter s),
    fun lead gap rest hlead hgap => ?_, fun p => exists_parse_iff.trans isProper_iff⟩
  rw [parse_congr (Text.trim_blank_append hlead _), parse_congr (Text.trim_blank_append hlead _),
    parse_mark_padded hgap]

/-- A name that starts with the mark and ends in the middle of a character. -/
def strayName : Text :=
  Text.ofString "!door" ++ [0xe2, 0x80]

/-- The name is read behind a mark with an ideographic space in front and a no-break space after it,
and it is read back. -/
theorem strayName_roundTrip :
    Text.isBlank "\u3000" = true ∧ Text.isBlank "\u00a0" = true ∧
      parse ("\u3000" ++ negationMark :: ("\u00a0" ++ strayName)) = .ok ⟨strayName, true⟩ ∧
      parse (written ⟨strayName, true⟩) = .ok ⟨strayName, true⟩ := by
  obtain ⟨hback, -, hgap, -⟩ := parse_roundTrip
  have hlead : Text.isBlank "\u3000" = true := by decide +kernel
  have hblank : Text.isBlank "\u00a0" = true := by decide +kernel
  have hparse : parse ("\u3000" ++ negationMark :: strayName) = .ok ⟨strayName, true⟩ :=
    eq_ok_of_toOption_eq_some (by decide +kernel)
  exact ⟨hlead, hblank, (hgap _ _ _ hlead hblank).trans hparse, hback _ _ hparse⟩

end Predicate

end StateForge
