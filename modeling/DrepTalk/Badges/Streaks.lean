import Mathlib.Data.List.Induction
import DrepTalk.Badges.Engine
import Mathlib.Order.Bounds.Basic

/-!
# The two streaks

Both streaks of the badge engine are scans of an ascending list with a running start. **The forum
streak** (`longestConsecutiveRun`) is the length of the longest block of consecutive epochs. **The
iron streak** (`longestCoveredSpan`) is the longest span, in calendar epochs, between two eligible
epochs with no eligible epoch in between that is not fully voted.

The invariant of a scan is about the epochs seen so far: the best is the greatest among them, and
the running start is where the block that ends at the last of them begins.
-/

namespace DrepTalk

/-! ### Consecutive epochs -/

/-- The sizes of the blocks of consecutive integers among the epochs. -/
def blockSizes (epochs : List ℤ) : Set ℕ := {n | ∃ a : ℤ, ∀ k : ℕ, k < n → a + k ∈ epochs}

/-- What the scan for a run knows of the epochs it has seen. -/
structure RunSeen (seen : List ℤ) (acc : ℕ × Option (ℤ × ℤ)) : Prop where
  best : IsGreatest (blockSizes seen) acc.1
  fresh : acc.2 = none → seen = []
  run : ∀ start last, acc.2 = some (start, last) → start ≤ last ∧ (∀ e ∈ seen, e ≤ last) ∧
    (∀ e, start ≤ e → e ≤ last → e ∈ seen) ∧ start - 1 ∉ seen

variable {seen : List ℤ} {e : ℤ}

theorem runSeen_of_start {best : ℕ} {start : ℤ} (hbest : IsGreatest (blockSizes seen) best)
    (hle : start ≤ e) (habove : ∀ e' ∈ seen, e' < e)
    (hblock : ∀ e', start ≤ e' → e' < e → e' ∈ seen) (hbefore : start - 1 ∉ seen) :
    RunSeen (seen ++ [e]) (max best (e - start + 1).toNat, some (start, e)) := by
  have hmem : ∀ {x : ℤ}, x ∈ seen ++ [e] ↔ x ∈ seen ∨ x = e := by simp
  have hin : ∀ e', start ≤ e' → e' ≤ e → e' ∈ seen ++ [e] := by
    intro e' hlow hhigh
    rcases hhigh.lt_or_eq with hlt | rfl
    · exact hmem.mpr (.inl (hblock e' hlow hlt))
    · exact hmem.mpr (.inr rfl)
  refine ⟨⟨?_, ?_⟩, nofun, ?_⟩
  · rcases max_cases best (e - start + 1).toNat with ⟨hmax, -⟩ | ⟨hmax, -⟩ <;> rw [hmax]
    · obtain ⟨a, ha⟩ := hbest.1
      exact ⟨a, fun k hk => hmem.mpr (.inl (ha k hk))⟩
    · exact ⟨start, fun k hk => hin _ (by omega) (by omega)⟩
  · -- a block that ends at the new epoch goes back no further than its run
    rintro n ⟨a, ha⟩
    by_cases hlast : a + n ≤ e
    · have hold : n ≤ best := hbest.2 ⟨a, fun k hk =>
        (hmem.mp (ha k hk)).resolve_right (by omega)⟩
      exact hold.trans (le_max_left _ _)
    · refine le_max_of_le_right ?_
      by_contra hlong
      have hat : ∀ x, a ≤ x → x < a + n → x ∈ seen ++ [e] := by
        intro x hlow hhigh
        have hx := ha (x - a).toNat (by omega)
        rwa [Int.toNat_of_nonneg (by omega), add_sub_cancel] at hx
      have hn : a + n ≤ e + 1 := by
        rcases hmem.mp (hat (a + n - 1) (by omega) (by omega)) with h | h
        · have := habove _ h
          omega
        · omega
      rcases hmem.mp (hat (start - 1) (by omega) (by omega)) with h | h
      · exact hbefore h
      · omega
  · rintro _ _ ⟨⟩
    refine ⟨hle, fun e' he' => ?_, hin, fun h => ?_⟩
    · rcases hmem.mp he' with h | rfl
      · exact (habove e' h).le
      · exact le_rfl
    · rcases hmem.mp h with h | h
      · exact hbefore h
      · omega

theorem RunSeen.step {acc : ℕ × Option (ℤ × ℤ)} (h : RunSeen seen acc)
    (habove : ∀ e' ∈ seen, e' < e) : RunSeen (seen ++ [e]) (runStep acc e) := by
  obtain ⟨best, _ | ⟨start, last⟩⟩ := acc
  · obtain rfl := h.fresh rfl
    exact runSeen_of_start h.best le_rfl nofun (fun e' hlow hhigh => absurd hlow (not_le.mpr hhigh))
      List.not_mem_nil
  · obtain ⟨hle, hlast, hin, hbefore⟩ := h.run start last rfl
    have hlt : last < e := habove last (hin last hle le_rfl)
    simp only [runStep]
    split_ifs with hnext
    · exact runSeen_of_start h.best (by omega) habove
        (fun e' hlow hhigh => hin e' hlow (by omega)) hbefore
    · refine runSeen_of_start h.best le_rfl habove (fun e' hlow hhigh => by omega) fun hmem => ?_
      have := hlast _ hmem
      omega

theorem scan_ascending {β : Type*} {step : β → ℤ → β} {Seen : List ℤ → β → Prop} {acc : β}
    (hstart : Seen [] acc)
    (hstep : ∀ seen acc e, Seen seen acc → (∀ e' ∈ seen, e' < e) → Seen (seen ++ [e]) (step acc e))
    {l : List ℤ} (hl : l.Pairwise (· < ·)) : Seen l (l.foldl step acc) := by
  induction l using List.reverseRecOn with
  | nil => exact hstart
  | append_singleton l e ih =>
    obtain ⟨hinit, -, habove⟩ := List.pairwise_append.mp hl
    rw [List.foldl_append]
    exact hstep _ _ _ (ih hinit) fun e' he' => habove e' he' e (List.mem_singleton_self e)

theorem isGreatest_longestConsecutiveRun (epochs : List ℤ) :
    IsGreatest (blockSizes epochs) (longestConsecutiveRun epochs) := by
  have hsorted : (epochs.dedup.insertionSort (· ≤ ·)).Pairwise (· < ·) :=
    ((List.pairwise_insertionSort _ _).and
      ((List.perm_insertionSort _ _).nodup_iff.mpr epochs.nodup_dedup)).imp fun h =>
        lt_of_le_of_ne h.1 h.2
  have hstart : RunSeen [] (0, none) := by
    refine ⟨⟨⟨0, nofun⟩, ?_⟩, fun _ => rfl, nofun⟩
    rintro n ⟨a, ha⟩
    exact not_lt.mp fun hpos => List.not_mem_nil (ha 0 hpos)
  have hscan := (scan_ascending hstart (fun _ _ _ h habove => h.step habove) hsorted).best
  have hmem : ∀ e, e ∈ epochs.dedup.insertionSort (· ≤ ·) ↔ e ∈ epochs := fun e =>
    (List.perm_insertionSort _ _).mem_iff.trans List.mem_dedup
  simp only [blockSizes, hmem] at hscan
  exact hscan

/-! ### Covered epochs -/

section Spans

variable {Full : ℤ → Prop}

/-- The lengths of the spans between two epochs with none in between that is not full. -/
def spanLengths (Full : ℤ → Prop) (epochs : List ℤ) : Set ℕ :=
  {n | ∃ a ∈ epochs, ∃ b ∈ epochs, a ≤ b ∧ (∀ e ∈ epochs, a ≤ e → e ≤ b → Full e) ∧
    n = (b - a + 1).toNat}

/-- What the scan for a span knows of the epochs it has seen. -/
structure SpanSeen (Full : ℤ → Prop) (seen : List ℤ) (acc : ℕ × Option ℤ) : Prop where
  best : IsGreatest (insert 0 (spanLengths Full seen)) acc.1
  broken : acc.2 = none → ∀ a ∈ seen, ∃ e ∈ seen, a ≤ e ∧ ¬Full e
  run : ∀ first, acc.2 = some first → first ∈ seen ∧ (∀ e ∈ seen, first ≤ e → Full e) ∧
    ∀ a ∈ seen, (∀ e ∈ seen, a ≤ e → Full e) → first ≤ a

theorem isGreatest_spans {best : ℕ} {span : ℕ}
    (hbest : IsGreatest (insert 0 (spanLengths Full seen)) best) (habove : ∀ e' ∈ seen, e' < e)
    (hspan : span ∈ insert 0 (spanLengths Full (seen ++ [e])))
    (hmax : ∀ a ∈ seen ++ [e], (∀ e' ∈ seen ++ [e], a ≤ e' → Full e') → (e - a + 1).toNat ≤ span) :
    IsGreatest (insert 0 (spanLengths Full (seen ++ [e]))) (max best span) := by
  have hmem : ∀ {x : ℤ}, x ∈ seen ++ [e] ↔ x ∈ seen ∨ x = e := by simp
  constructor
  · rcases max_cases best span with ⟨h, -⟩ | ⟨h, -⟩ <;> rw [h]
    · refine hbest.1.imp_right ?_
      rintro ⟨a, ha, b, hb, hab, hfull, hn⟩
      refine ⟨a, hmem.mpr (.inl ha), b, hmem.mpr (.inl hb), hab, fun e' he' hlow hhigh => ?_, hn⟩
      rcases hmem.mp he' with h | rfl
      · exact hfull e' h hlow hhigh
      · exact absurd (habove b hb) (not_lt.mpr hhigh)
    · exact hspan
  · rintro n (rfl | ⟨a, ha, b, hb, hab, hfull, rfl⟩)
    · exact Nat.zero_le _
    · rcases hmem.mp hb with hb | rfl
      · have ha' : a ∈ seen := (hmem.mp ha).resolve_right fun h => by
          have := habove b hb
          omega
        exact le_max_of_le_left (hbest.2 (.inr ⟨a, ha', b, hb, hab,
          fun e' he' => hfull e' (hmem.mpr (.inl he')), rfl⟩))
      · refine le_max_of_le_right (hmax a ha fun e' he' hlow => hfull e' he' hlow ?_)
        rcases hmem.mp he' with h | rfl
        · exact (habove e' h).le
        · exact le_rfl

theorem SpanSeen.step {totals voted : List (ℤ × ℕ)} {acc : ℕ × Option ℤ}
    (hfull : ∀ e, Full e ↔ some ((voted.lookup e).getD 0) = totals.lookup e)
    (h : SpanSeen Full seen acc) (habove : ∀ e' ∈ seen, e' < e) :
    SpanSeen Full (seen ++ [e]) (coveredStep totals voted acc e) := by
  have hmem : ∀ {x : ℤ}, x ∈ seen ++ [e] ↔ x ∈ seen ∨ x = e := by simp
  have hback : ∀ {P : ℤ → Prop}, (∀ x ∈ seen, P x) → P e → ∀ x ∈ seen ++ [e], P x := by
    intro P hseen he x hx
    rcases hmem.mp hx with h | rfl
    · exact hseen x h
    · exact he
  obtain ⟨best, run⟩ := acc
  simp only [coveredStep]
  split_ifs with he
  · -- full: the run goes on, or begins here
    have hfirst : run.getD e ≤ e ∧ run.getD e ∈ seen ++ [e] ∧
        (∀ x ∈ seen ++ [e], run.getD e ≤ x → Full x) ∧
          ∀ a ∈ seen ++ [e], (∀ x ∈ seen ++ [e], a ≤ x → Full x) → run.getD e ≤ a := by
      rcases run with _ | first
      · refine ⟨le_rfl, hmem.mpr (.inr rfl), hback (fun x hx hle => ?_) fun _ => (hfull e).mpr he,
          hback (fun a ha hall => ?_) fun _ => le_rfl⟩
        · exact absurd (habove x hx) (not_lt.mpr hle)
        · obtain ⟨x, hx, hle, hnot⟩ := h.broken rfl a ha
          exact absurd (hall x (hmem.mpr (.inl hx)) hle) hnot
      · obtain ⟨hin, hall, hleast⟩ := h.run first rfl
        exact ⟨(habove first hin).le, hmem.mpr (.inl hin), hback hall fun _ => (hfull e).mpr he,
          hback (fun a ha hfulls => hleast a ha fun x hx => hfulls x (hmem.mpr (.inl hx)))
            fun _ => (habove first hin).le⟩
    obtain ⟨hle, hin, hall, hleast⟩ := hfirst
    refine ⟨isGreatest_spans h.best habove (.inr ⟨_, hin, e, hmem.mpr (.inr rfl), hle,
      fun x hx hlow _ => hall x hx hlow, rfl⟩) fun a ha hfulls => ?_, nofun, ?_⟩
    · have := hleast a ha hfulls
      omega
    · rintro _ ⟨⟩
      exact ⟨hin, hall, hleast⟩
  · -- not full: every span that would end here is broken
    have hbroken : ¬Full e := fun h => he ((hfull e).mp h)
    have hno : ∀ a ∈ seen ++ [e], ∃ x ∈ seen ++ [e], a ≤ x ∧ ¬Full x :=
      hback (fun a ha => ⟨e, hmem.mpr (.inr rfl), (habove a ha).le, hbroken⟩)
        ⟨e, hmem.mpr (.inr rfl), le_rfl, hbroken⟩
    refine ⟨?_, fun _ => hno, nofun⟩
    rw [← max_eq_left (Nat.zero_le best)]
    refine isGreatest_spans h.best habove (.inl rfl) fun a ha hfulls => ?_
    obtain ⟨x, hx, hle, hnot⟩ := hno a ha
    exact absurd (hfulls x hx hle) hnot

theorem isGreatest_longestCoveredSpan {eligibleEpochs : List ℤ} (totals voted : List (ℤ × ℕ))
    (hascending : eligibleEpochs.Pairwise (· < ·))
    (hfull : ∀ e, Full e ↔ some ((voted.lookup e).getD 0) = totals.lookup e) :
    IsGreatest (insert 0 (spanLengths Full eligibleEpochs))
      (longestCoveredSpan eligibleEpochs totals voted) := by
  have hstart : SpanSeen Full [] (0, none) := by
    refine ⟨⟨.inl rfl, ?_⟩, nofun, nofun⟩
    rintro n (rfl | ⟨a, ha, -⟩)
    · exact le_rfl
    · cases ha
  exact (scan_ascending hstart (fun _ _ _ h habove => h.step hfull habove) hascending).best

end Spans

/-- The lengths of the spans from one position to another, all of whose epochs are fully voted. -/
def coveredSpans (epochs : List ℤ) (totals voted : List (ℤ × ℕ)) : Set ℕ :=
  {n | ∃ i j, ∃ hi : i < epochs.length, ∃ hj : j < epochs.length, i ≤ j ∧
    (∀ k, ∀ hk : k < epochs.length, i ≤ k → k ≤ j →
      some ((voted.lookup epochs[k]).getD 0) = totals.lookup epochs[k]) ∧
    n = (epochs[j] - epochs[i] + 1).toNat}

theorem spanLengths_eq {epochs : List ℤ} (totals voted : List (ℤ × ℕ))
    (hascending : epochs.Pairwise (· < ·)) :
    spanLengths (fun e => some ((voted.lookup e).getD 0) = totals.lookup e) epochs =
      coveredSpans epochs totals voted := by
  have hle : ∀ i j (hi : i < epochs.length) (hj : j < epochs.length),
      epochs[i] ≤ epochs[j] ↔ i ≤ j := fun i j hi hj =>
    hascending.sortedLT.strictMono_get.le_iff_le (a := ⟨i, hi⟩) (b := ⟨j, hj⟩)
  ext n
  constructor
  · rintro ⟨_, ha, _, hb, hab, hfull, rfl⟩
    obtain ⟨i, hi, rfl⟩ := List.getElem_of_mem ha
    obtain ⟨j, hj, rfl⟩ := List.getElem_of_mem hb
    exact ⟨i, j, hi, hj, (hle i j hi hj).mp hab, fun k hk hik hkj =>
      hfull _ (List.getElem_mem hk) ((hle i k hi hk).mpr hik) ((hle k j hk hj).mpr hkj), rfl⟩
  · rintro ⟨i, j, hi, hj, hij, hfull, rfl⟩
    refine ⟨_, List.getElem_mem hi, _, List.getElem_mem hj, (hle i j hi hj).mpr hij, ?_, rfl⟩
    intro e he hlow hhigh
    obtain ⟨k, hk, rfl⟩ := List.getElem_of_mem he
    exact hfull k hk ((hle i k hi hk).mp hlow) ((hle k j hk hj).mp hhigh)

/-- **The streaks**: the run is the longest block of consecutive epochs, whatever the order and the
repetitions, and the span is the longest one without a break. -/
theorem streaks_right :
    (∀ epochs : List ℤ, IsGreatest (blockSizes epochs) (longestConsecutiveRun epochs)) ∧
    (∀ epochs epochs' : List ℤ, (∀ e, e ∈ epochs ↔ e ∈ epochs') →
      longestConsecutiveRun epochs = longestConsecutiveRun epochs') ∧
    ∀ (eligibleEpochs : List ℤ) (totals voted : List (ℤ × ℕ)), eligibleEpochs.Pairwise (· < ·) →
      IsGreatest (insert 0 (coveredSpans eligibleEpochs totals voted))
        (longestCoveredSpan eligibleEpochs totals voted) := by
  refine ⟨isGreatest_longestConsecutiveRun, fun epochs epochs' h => ?_, ?_⟩
  · have hsame : blockSizes epochs = blockSizes epochs' := by simp only [blockSizes, h]
    exact (isGreatest_longestConsecutiveRun epochs).unique
      (hsame ▸ isGreatest_longestConsecutiveRun epochs')
  · intro eligibleEpochs totals voted hascending
    rw [← spanLengths_eq totals voted hascending]
    exact isGreatest_longestCoveredSpan totals voted hascending fun e => Iff.rfl

/-- An epoch without decided actions is bridged, a missed one breaks the span. -/
theorem streaks_right_bridged :
    longestConsecutiveRun [7, 3, 4, 7, 5] = 3 ∧ IsGreatest (insert 0 (coveredSpans [1, 4, 5, 9]
      [(1, 2), (4, 1), (5, 3), (9, 1)] [(1, 2), (4, 1), (9, 1)])) 4 := by
  have hspan : longestCoveredSpan [1, 4, 5, 9] [(1, 2), (4, 1), (5, 3), (9, 1)]
      [(1, 2), (4, 1), (9, 1)] = 4 := by decide +kernel
  exact ⟨by decide +kernel, hspan ▸ streaks_right.2.2 _ _ _ (by decide)⟩

end DrepTalk
