import Mathlib.Data.List.SplitBy
import Mathlib.Data.List.DropRight

/-!
# Text as JavaScript regular expressions see it

Strings are lists of characters. The regular-expression class `\s` is `isSpace`, and
`String.prototype.trim` strips the same class. A text falls apart into maximal *runs* of
white and of inked characters (`runs`, the matches of `/\s+|[^\s]+/g`), and its *words* are
the inked runs (`words`, the matches of `/\S+/g`).

What a comparison "up to whitespace" keeps of a text is `ink`: its non-white characters in
order. The lemmas here say that cutting a text at its outer white runs loses nothing
(`leading_core_trailing`) and keeps all of its ink (`ink_core`).
-/

namespace DrepTalk

abbrev Text := List Char

namespace JsText

/-- The class `\s`: the white space and line terminators of the language. -/
def isSpace (c : Char) : Bool :=
  let n := c.toNat
  (0x9 ≤ n && n ≤ 0xd) || n == 0x20 || n == 0xa0 || n == 0x1680 ||
    (0x2000 ≤ n && n ≤ 0x200a) || n == 0x2028 || n == 0x2029 || n == 0x202f ||
    n == 0x205f || n == 0x3000 || n == 0xfeff

/-- `text.trim()`. -/
def trim (t : Text) : Text := (t.dropWhile isSpace).rdropWhile isSpace

/-- The match of `/^\s*/`. -/
def leading (t : Text) : Text := t.takeWhile isSpace

/-- The match of `/\s*$/`. -/
def trailing (t : Text) : Text := t.rtakeWhile isSpace

/-- `text.slice(from, to)` for indices inside the text. -/
def slice (t : Text) (start stop : ℕ) : Text := (t.take stop).drop start

/-- The matches of `/\s+|[^\s]+/g`: maximal white and inked runs. -/
def runs (t : Text) : List Text := t.splitBy fun a b => isSpace a == isSpace b

/-- The matches of `/[^\s]+/g`: the inked runs. -/
def words (t : Text) : List Text := (runs t).filter fun r => !r.all isSpace

/-- `text.replace(/\s+/g, ' ')`: every white run becomes one blank. -/
def collapse (t : Text) : Text :=
  ((runs t).map fun r => if r.all isSpace then [' '] else r).flatten

/-- The non-white characters of a text, in order. -/
def ink (t : Text) : Text := t.filter fun c => !isSpace c

@[simp] theorem ink_nil : ink [] = [] := rfl

@[simp] theorem ink_append (s t : Text) : ink (s ++ t) = ink s ++ ink t :=
  List.filter_append ..

variable {t : Text}

theorem ink_eq_nil_iff : ink t = [] ↔ ∀ c ∈ t, isSpace c = true := by
  simp [ink, List.filter_eq_nil_iff]

@[simp] theorem ink_leading (t : Text) : ink (leading t) = [] :=
  ink_eq_nil_iff.mpr fun _ hc => List.mem_takeWhile_imp hc

@[simp] theorem ink_trailing (t : Text) : ink (trailing t) = [] :=
  ink_eq_nil_iff.mpr fun _ hc => List.mem_rtakeWhile_imp hc

theorem trim_eq_nil_iff : trim t = [] ↔ ∀ c ∈ t, isSpace c = true := by
  rw [trim, List.rdropWhile_eq_nil_iff]
  refine ⟨fun h => ?_, fun h c hc => h c ((List.dropWhile_sublist _).mem hc)⟩
  by_contra hcon
  push Not at hcon
  obtain ⟨c, hc, hcs⟩ := hcon
  have hmem : c ∈ t.dropWhile isSpace := by
    rw [← List.takeWhile_append_dropWhile (p := isSpace) (l := t), List.mem_append] at hc
    exact hc.resolve_left fun h' => hcs (List.mem_takeWhile_imp h')
  exact hcs (h c hmem)

theorem leading_core_trailing (h : trim t ≠ []) :
    leading t ++ slice t (leading t).length (t.length - (trailing t).length) ++ trailing t
      = t := by
  obtain ⟨c, hc, hcs⟩ : ∃ c ∈ t, ¬ isSpace c = true := by
    by_contra hcon
    push Not at hcon
    exact h (trim_eq_nil_iff.mpr hcon)
  obtain ⟨u, v, rfl⟩ := List.append_of_mem hc
  have hlead : (leading (u ++ c :: v)).length ≤ u.length := by
    rw [leading, List.takeWhile_append]
    split <;> simp [hcs, (List.takeWhile_prefix _).length_le]
  have htrail : (trailing (u ++ c :: v)).length ≤ v.length := by
    rw [trailing, List.rtakeWhile, List.length_reverse, List.reverse_append,
      List.reverse_cons, List.append_assoc, List.takeWhile_append]
    split
    · simp [hcs]
    · simpa using (List.takeWhile_prefix isSpace (l := v.reverse)).length_le
  have hl : leading (u ++ c :: v) = (u ++ c :: v).take (leading (u ++ c :: v)).length :=
    List.prefix_iff_eq_take.mp (List.takeWhile_prefix _)
  have ht : trailing (u ++ c :: v)
      = (u ++ c :: v).drop ((u ++ c :: v).length - (trailing (u ++ c :: v)).length) :=
    List.suffix_iff_eq_drop.mp (List.rtakeWhile_suffix _ _)
  generalize (leading (u ++ c :: v)).length = l at hl hlead ⊢
  generalize (trailing (u ++ c :: v)).length = r at ht htrail ⊢
  rw [hl, ht, slice]
  have hlen : (u ++ c :: v).length = u.length + v.length + 1 := by simp; omega
  have hsplit : (u ++ c :: v).take l
      = ((u ++ c :: v).take ((u ++ c :: v).length - r)).take l := by
    rw [List.take_take, Nat.min_eq_left (by omega)]
  rw [hsplit, List.take_append_drop, List.take_append_drop]

theorem ink_core (h : trim t ≠ []) :
    ink (slice t (leading t).length (t.length - (trailing t).length)) = ink t := by
  conv_rhs => rw [← leading_core_trailing h]
  simp

theorem flatten_runs (t : Text) : (runs t).flatten = t := List.flatten_splitBy ..

theorem words_eq_nil_of_white (h : ∀ c ∈ t, isSpace c = true) : words t = [] := by
  refine List.filter_eq_nil_iff.mpr fun r hr => ?_
  have hsub : ∀ c ∈ r, isSpace c = true := fun c hc =>
    h c (flatten_runs t ▸ List.mem_flatten.mpr ⟨r, hr, hc⟩)
  simpa using hsub

end JsText

end DrepTalk
