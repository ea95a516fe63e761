import ScriptHost.Script.Syntax

/-!
# Lower-case forms

A text in lower case stays as it is when it is put into lower case once more. Single characters
have that property because no character that the mapping leads to is one that the mapping moves:
the runs of the table lead out of all runs. It carries over to texts although the form of a sigma
depends on its neighbours and one character becomes two, since no capital sigma is left for which
the neighbours could matter.
-/

namespace ScriptHost
namespace Text

/-! ## Runs of the table -/

namespace CaseRun

/-- The code points from `lo` to `hi` are none of the run: they lie outside of it or, if they are
spaced by two like those of the run, between them. -/
def isAvoidedBy (lo hi : Nat) (spaced : Bool) (r : CaseRun) : Bool :=
  hi.blt r.first || r.last.blt lo || r.stride == 2 && spaced && (lo + r.first) % 2 == 1

/-- A run leads to characters that neither a run nor one of the exceptions moves. -/
def leadsOut (r : CaseRun) : Bool :=
  let lo := (r.first + r.offset).toNat
  let hi := (r.last + r.offset).toNat
  let spaced := r.stride == 2 || r.first == r.last
  Nat.blt 0x5A lo && (hi.blt 0xD800 || Nat.blt 0xDFFF lo && hi.blt 0x110000) &&
    isAvoidedBy lo hi spaced ⟨0x130, 0x130, 1, 0⟩ && lowerRuns.all (isAvoidedBy lo hi spaced)

/-- Every run of the table leads out of all runs, which is checked run by run. -/
theorem leadsOut_of_mem {r : CaseRun} (h : r ∈ lowerRuns) : r.leadsOut = true := by
  have hall : lowerRuns.all leadsOut = true := by decide +kernel
  exact List.all_eq_true.1 hall r h

variable {r q : CaseRun} {n : Nat}

/-- What is checked for the ends of a run holds within it. -/
theorem not_covers_of_isAvoidedBy (hn : r.covers n = true) (hpositive : 0 < r.first + r.offset)
    (h : isAvoidedBy (r.first + r.offset).toNat (r.last + r.offset).toNat
      (r.stride == 2 || r.first == r.last) q = true) :
    q.covers (n + r.offset).toNat = false := by
  simp only [covers, isAvoidedBy, Bool.or_eq_true, Bool.and_eq_true, decide_eq_true_eq,
    beq_iff_eq, Nat.blt_eq] at h hn
  rcases hn with ⟨⟨hfirst, hlast⟩, hstride⟩
  rw [Bool.eq_false_iff]
  intro hq
  simp only [covers, Bool.and_eq_true, decide_eq_true_eq, beq_iff_eq] at hq
  rcases h with (h | h) | ⟨⟨hq2, hspaced⟩, hodd⟩
  · omega
  · omega
  · rw [hq2] at hq
    rcases hspaced with hspaced | hspaced
    · rw [hspaced] at hstride
      omega
    · omega

end CaseRun

/-! ## Single characters -/

/-- Lower-casing leaves the character alone, whatever stands around it. -/
def IsSettled (c : Char) : Prop :=
  c ≠ '\u03a3' ∧ lowerChar c = [c]

/-- Small letters in ASCII stay as they are. -/
theorem isSettled_toLower {c : Char} (h : c.toNat < 0x80) : IsSettled c.toLower := by
  have hall : ∀ n < 0x80, (Char.ofNat n).toLower ≠ '\u03a3' ∧
      lowerChar (Char.ofNat n).toLower = [(Char.ofNat n).toLower] := by
    decide +kernel
  have hc := hall c.toNat h
  rwa [Char.ofNat_toNat] at hc

/-- A character that neither a run nor one of the exceptions moves. -/
theorem isSettled_of_unmoved {c : Char} (hascii : ¬c.toNat < 0x80) (hdotted : c ≠ '\u0130')
    (hruns : ∀ r ∈ lowerRuns, r.covers c.toNat = false) : IsSettled c := by
  constructor
  · -- the capital sigma belongs to a run
    rintro rfl
    have hsigma : lowerRuns.any (fun r => r.covers '\u03a3'.toNat) = true := by decide +kernel
    rcases List.any_eq_true.1 hsigma with ⟨r, hr, hcovers⟩
    exact absurd hcovers (by rw [hruns r hr]; decide)
  · have hnone : lowerRuns.find? (fun r => r.covers c.toNat) = none := by
      rw [List.find?_eq_none]
      intro r hr
      rw [hruns r hr]
      decide
    rw [lowerChar, if_neg hascii, if_neg hdotted, hnone]

theorem isSettled_of_avoided {c : Char} (hascii : ¬c.toNat < 0x80) (hdotted : c ≠ '\u0130')
    (h : (lowerRuns.all fun r => !r.covers c.toNat) = true) : IsSettled c :=
  isSettled_of_unmoved hascii hdotted fun r hr => by simpa using List.all_eq_true.1 h r hr

theorem isSettled_of_covers {r : CaseRun} {n : Nat} (hr : r ∈ lowerRuns)
    (hn : r.covers n = true) : IsSettled (Char.ofNat (n + r.offset).toNat) := by
  have hout := CaseRun.leadsOut_of_mem hr
  simp only [CaseRun.leadsOut, Bool.and_eq_true, Bool.or_eq_true, Nat.blt_eq,
    List.all_eq_true] at hout
  rcases hout with ⟨⟨⟨hlow, hvalid⟩, hdotted⟩, hruns⟩
  have hpositive : 0 < r.first + r.offset := by omega
  have hrange : r.first ≤ n ∧ n ≤ r.last := by
    simp only [CaseRun.covers, Bool.and_eq_true, decide_eq_true_eq] at hn
    exact hn.1
  have hcode : (Char.ofNat (n + r.offset).toNat).toNat = (n + r.offset).toNat := by
    have hchar : (n + r.offset).toNat.isValidChar := by
      unfold Nat.isValidChar
      omega
    rw [Char.ofNat, dif_pos hchar]
    rfl
  by_cases hascii : (n + r.offset).toNat < 0x80
  · -- behind the capital letters, so that lower-casing does nothing
    have hall : ∀ k < 0x80, 0x5A < k → (Char.ofNat k).toLower = Char.ofNat k := by decide +kernel
    have hsame := isSettled_toLower (hcode ▸ hascii)
    rwa [hall _ hascii (by omega)] at hsame
  · refine isSettled_of_unmoved (by rwa [hcode]) ?_ fun q hq => ?_
    · intro heq
      have hmoved := CaseRun.not_covers_of_isAvoidedBy hn hpositive hdotted
      rw [← hcode, heq] at hmoved
      exact absurd hmoved (by decide)
    · rw [hcode]
      exact CaseRun.not_covers_of_isAvoidedBy hn hpositive (hruns q hq)

theorem isSettled_of_mem_lowerChar {c d : Char} (h : d ∈ lowerChar c) : IsSettled d := by
  unfold lowerChar at h
  split at h
  · next hascii =>
      rw [List.mem_singleton.1 h]
      exact isSettled_toLower hascii
  · next hascii =>
    split at h
    · -- the two characters for the dotted capital
      have hdot : IsSettled '\u0307' :=
        isSettled_of_avoided (by decide) (by decide) (by decide +kernel)
      rcases List.mem_cons.1 h with rfl | h
      · exact isSettled_toLower (c := 'i') (by decide)
      · rw [List.mem_singleton.1 h]
        exact hdot
    · next hdotted =>
      split at h
      · next r hr =>
          rw [List.mem_singleton.1 h]
          exact isSettled_of_covers (List.mem_of_find?_eq_some hr)
            (by simpa using List.find?_some hr)
      · next hnone =>
          rw [List.mem_singleton.1 h]
          refine isSettled_of_unmoved hascii hdotted fun r hr => ?_
          simpa using List.find?_eq_none.1 hnone r hr

/-! ## Texts -/

theorem isSettled_of_mem_lowerAfter {d : Char} (before cs : List Char)
    (h : d ∈ lowerAfter before cs) : IsSettled d := by
  induction cs generalizing before with
  | nil => cases h
  | cons c rest ih =>
      rw [lowerAfter] at h
      rcases List.mem_append.1 h with h | h
      · split at h
        · -- either of the two small sigmas
          have hfinal : IsSettled '\u03c2' :=
            isSettled_of_avoided (by decide) (by decide) (by decide +kernel)
          have hsmall : IsSettled '\u03c3' :=
            isSettled_of_avoided (by decide) (by decide) (by decide +kernel)
          rw [List.mem_singleton.1 h]
          split
          · exact hfinal
          · exact hsmall
        · exact isSettled_of_mem_lowerChar h
      · exact ih _ h

/-- No character of such a text depends on its neighbours. -/
theorem lowerAfter_of_settled {cs : List Char} (h : ∀ c ∈ cs, IsSettled c) (before : List Char) :
    lowerAfter before cs = cs := by
  induction cs generalizing before with
  | nil => rfl
  | cons c rest ih =>
      rcases h c List.mem_cons_self with ⟨hsigma, hlower⟩
      rw [lowerAfter, ih fun d hd => h d (List.mem_cons_of_mem c hd)]
      simp [hsigma, hlower]

/-- A text in lower case is its own lower-case form. -/
theorem lowercase_lowercase (s : String) : lowercase (lowercase s) = lowercase s := by
  unfold lowercase
  rw [String.toList_ofList,
    lowerAfter_of_settled fun c hc => isSettled_of_mem_lowerAfter [] s.toList hc]

theorem lowerChar_ne_nil (c : Char) : lowerChar c ≠ [] := by
  unfold lowerChar
  split
  · exact List.cons_ne_nil _ _
  · split
    · exact List.cons_ne_nil _ _
    · split
      · exact List.cons_ne_nil _ _
      · exact List.cons_ne_nil _ _

theorem lowercase_ne_empty {s : String} (h : s ≠ "") : lowercase s ≠ "" := by
  intro hempty
  have hnil : lowerAfter [] s.toList = [] := by
    have htoList := congrArg String.toList hempty
    rwa [lowercase, String.toList_ofList] at htoList
  cases hs : s.toList with
  | nil => exact h (String.toList_eq_nil_iff.1 hs)
  | cons c rest =>
      rw [hs, lowerAfter] at hnil
      have hlowered := (List.append_eq_nil_iff.1 hnil).1
      split at hlowered
      · cases hlowered
      · exact lowerChar_ne_nil c hlowered

end Text

namespace Script

/-- Putting a name into its normal form twice is putting it there once. -/
theorem normalizeName_normalizeName (name : String) :
    normalizeName (normalizeName name) = normalizeName name :=
  Text.lowercase_lowercase name

end Script
end ScriptHost
