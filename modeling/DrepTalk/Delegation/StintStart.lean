import DrepTalk.Delegation.Provenance
import Mathlib.Data.List.DropRight

/-!
# The start of the current stint

What `classifyCandidate` is about: an account's current stint with `self` is the maximal run of
events at the end of its history that target `self`, and it begins in the window or before it.
Unresolved events have some target, only not a known one, so an answer is right if it is right
for every *completion* of the history.

An answer can only be wrong in one situation (`HiddenStart`). The event in front of the last
run of `self` is unresolved and inside the window, so the answer is an arrival. The code looks
one run further back, for an old run of `self` that the unresolved event might join, but not
past a second unresolved event behind which the same may happen.

`sound_classifyCandidate_iff` says that this is the only one: the answer is right for every
completion exactly if the history is not in that situation.
-/

namespace DrepTalk

/-! ### Stints and completions -/

/-- The events of the current stint: the maximal run at the end that targets `self`. -/
def currentStint (self : String) (events : List ResolvedEvent) : List ResolvedEvent :=
  events.rtakeWhile fun e => e.target == some self

/-- The epoch in which the current stint began. -/
def stintStart (self : String) (events : List ResolvedEvent) : Option ℤ :=
  (currentStint self events).head?.map (·.epoch)

/-- The stretch at the end in which every event targets `self` or may do so. -/
def possibleStint (self : String) (events : List ResolvedEvent) : List ResolvedEvent :=
  events.rtakeWhile fun e => e.target == some self || e.target == none

/-- The event with its target filled in. -/
structure ResolvedEvent.Fills (e e' : ResolvedEvent) : Prop where
  txHash_eq : e'.txHash = e.txHash
  epoch_eq : e'.epoch = e.epoch
  slot_eq : e'.slot = e.slot
  resolved : e'.target ≠ none
  keeps : ∀ t, e.target = some t → e'.target = some t

/-- The history with every unresolved target filled in some way. -/
def Completes : List ResolvedEvent → List ResolvedEvent → Prop :=
  List.Forall₂ ResolvedEvent.Fills

/-- The answer is right for every completion of the history. -/
def SoundAnswer (events : List ResolvedEvent) (self : String) (cutoff : ℤ) : Prop :=
  ∀ events', Completes events events' →
    (∀ source returning, classifyCandidate events self cutoff = .arrival source returning →
      ∃ start, stintStart self events' = some start ∧ cutoff ≤ start) ∧
    (classifyCandidate events self cutoff = .base →
      ∃ start, stintStart self events' = some start ∧ start < cutoff)

/-- The situation in which the start of a stint stays hidden: behind an unresolved event inside
the window the stint may reach back past the cutoff, although the run right in front of that
event is not an old run of `self`. -/
def HiddenStart (events : List ResolvedEvent) (self : String) (cutoff : ℤ) : Prop :=
  ∃ before x stint, events = before ++ x :: stint ∧ stint ≠ [] ∧
    (∀ e ∈ stint, e.target = some self) ∧ x.target = none ∧ cutoff ≤ x.epoch ∧
    (∀ e ∈ currentStint self before, cutoff ≤ e.epoch) ∧
    ∃ e ∈ possibleStint self before, e.epoch < cutoff

def Chronological (events : List ResolvedEvent) : Prop :=
  events.Pairwise fun a b => a.epoch ≤ b.epoch

/-! ### Runs -/

theorem collapseRuns_concat (events : List ResolvedEvent) (e : ResolvedEvent) :
    collapseRuns (events ++ [e]) = pushRun (collapseRuns events) e := by
  rw [collapseRuns, List.foldl_append, List.foldl_cons, List.foldl_nil, collapseRuns]

theorem getLast?_collapseRuns (events : List ResolvedEvent) :
    (collapseRuns events).getLast?.map (·.target) = events.getLast?.map (·.target) := by
  rcases List.eq_nil_or_concat events with rfl | ⟨init, e, rfl⟩
  · rfl
  · rw [List.concat_eq_append, collapseRuns_concat, pushRun]
    split
    · rename_i prev hprev
      split_ifs with h
      · simp [hprev, h.2]
      · simp
    · simp

theorem collapseRuns_concat_of_ne {events : List ResolvedEvent} {e : ResolvedEvent}
    (h : e.target = none ∨ ∀ prev, events.getLast? = some prev → prev.target ≠ e.target) :
    collapseRuns (events ++ [e]) = collapseRuns events ++ [⟨e.target, e.epoch⟩] := by
  rw [collapseRuns_concat, pushRun]
  split
  · rename_i prev hprev
    rw [if_neg]
    rintro ⟨hne, heq⟩
    rcases h with h | h
    · exact hne (heq.trans h)
    · have hlast := getLast?_collapseRuns events
      rw [hprev, Option.map_some] at hlast
      obtain ⟨last, hevent, htarget⟩ := Option.map_eq_some_iff.mp hlast.symm
      exact h last hevent (htarget.trans heq)
  · rfl

theorem collapseRuns_block {events block : List ResolvedEvent} {t : String} {e : ResolvedEvent}
    (hblock : ∀ b ∈ e :: block, b.target = some t)
    (hnew : ∀ prev, events.getLast? = some prev → prev.target ≠ some t) :
    collapseRuns (events ++ e :: block) = collapseRuns events ++ [⟨some t, e.epoch⟩] := by
  obtain ⟨he, hrest⟩ := List.forall_mem_cons.mp hblock
  induction block using List.reverseRecOn with
  | nil => rw [collapseRuns_concat_of_ne (.inr fun prev hp => he ▸ hnew prev hp), he]
  | append_singleton block b ih =>
    obtain ⟨hrest, hb⟩ := List.forall_mem_append.mp hrest
    have hshape : events ++ e :: (block ++ [b]) = events ++ e :: block ++ [b] := by simp
    rw [hshape, collapseRuns_concat, ih (List.forall_mem_cons.mpr ⟨he, hrest⟩) hrest, pushRun,
      List.getLast?_concat]
    simp [hb b (by simp)]

theorem rtakeWhile_split (p : ResolvedEvent → Bool) (events : List ResolvedEvent) :
    ∃ before, events = before ++ events.rtakeWhile p ∧
      ∀ prev, before.getLast? = some prev → p prev = false := by
  refine ⟨events.rdropWhile p, (List.rdropWhile_append_rtakeWhile ..).symm, fun prev hprev => ?_⟩
  have hne : events.rdropWhile p ≠ [] := by
    rintro heq
    simp [heq] at hprev
  have hlast := List.rdropWhile_last_not p events hne
  rw [List.getLast?_eq_some_getLast hne, Option.some.injEq] at hprev
  simpa [hprev] using hlast

/-! ### Stints of an extended history -/

theorem rtakeWhile_append_of_pos {p : ResolvedEvent → Bool} {before block : List ResolvedEvent}
    (h : ∀ e ∈ block, p e = true) :
    (before ++ block).rtakeWhile p = before.rtakeWhile p ++ block := by
  rw [List.rtakeWhile, List.reverse_append, List.takeWhile_append_of_pos fun e he =>
    h e (List.mem_reverse.mp he), List.reverse_append, List.reverse_reverse, ← List.rtakeWhile]

theorem currentStint_concat_of_ne {self : String} {before : List ResolvedEvent} {x : ResolvedEvent}
    (h : x.target ≠ some self) : currentStint self (before ++ [x]) = [] :=
  List.rtakeWhile_concat_neg _ _ x (by simpa using h)

theorem Chronological.of_suffix {events suffix : List ResolvedEvent} (h : Chronological events)
    (hs : suffix <:+ events) : Chronological suffix :=
  h.sublist hs.sublist

theorem Chronological.head_le {e : ResolvedEvent} {events : List ResolvedEvent}
    (h : Chronological (e :: events)) : ∀ b ∈ e :: events, e.epoch ≤ b.epoch :=
  List.forall_mem_cons.mpr ⟨le_rfl, (List.pairwise_cons.mp h).1⟩

theorem stintStart_lt_iff {self : String} {events : List ResolvedEvent} {start cutoff : ℤ}
    (h : Chronological events) (hstart : stintStart self events = some start) :
    start < cutoff ↔ ∃ e ∈ currentStint self events, e.epoch < cutoff := by
  have hchron : Chronological (currentStint self events) := h.of_suffix (List.rtakeWhile_suffix ..)
  rw [stintStart] at hstart
  rcases hlist : currentStint self events with _ | ⟨f, fs⟩
  · simp [hlist] at hstart
  · rw [hlist] at hstart hchron
    obtain rfl : f.epoch = start := by simpa using hstart
    refine ⟨fun hlt => ⟨f, by simp, hlt⟩, fun ⟨e, he, hlt⟩ => ?_⟩
    exact (hchron.head_le e he).trans_lt hlt

/-- The last run of the collapsed history is an old run of `self` exactly if the history ends
in a stint with an event before the cutoff. -/
theorem oldRun_iff {self : String} {events : List ResolvedEvent} {cutoff : ℤ}
    (h : Chronological events) :
    (∃ run, (collapseRuns events).getLast? = some run ∧ run.target = some self ∧
        run.epoch < cutoff) ↔ ∃ e ∈ currentStint self events, e.epoch < cutoff := by
  obtain ⟨before, hsplit, hbefore⟩ :=
    rtakeWhile_split (fun e => e.target == some self) events
  rw [← currentStint] at hsplit
  have hself : ∀ e ∈ currentStint self events, e.target = some self := fun e he => by
    simpa using List.mem_rtakeWhile_imp he
  have hchron : Chronological (currentStint self events) := h.of_suffix (List.rtakeWhile_suffix ..)
  rcases hlist : currentStint self events with _ | ⟨f, fs⟩
  · rw [hlist, List.append_nil] at hsplit
    refine ⟨fun ⟨run, hrun, htarget, _⟩ => ?_, by simp⟩
    have hlast := getLast?_collapseRuns events
    rw [hrun, Option.map_some, htarget] at hlast
    obtain ⟨last, hlast, hself⟩ := Option.map_eq_some_iff.mp hlast.symm
    simpa [hself] using hbefore last (hsplit ▸ hlast)
  · rw [hlist] at hsplit hself hchron
    rw [hsplit, collapseRuns_block hself fun prev hprev => by simpa using hbefore prev hprev,
      List.getLast?_concat]
    refine ⟨fun ⟨run, hrun, _, hlt⟩ => ?_, fun ⟨e, he, hlt⟩ => ?_⟩
    · cases hrun
      exact ⟨f, by simp, hlt⟩
    · exact ⟨_, rfl, rfl, (hchron.head_le e he).trans_lt hlt⟩

/-! ### What the code answers -/

section Answer

variable {self : String} {cutoff : ℤ}

theorem classifyCandidate_of_stint_nil {events : List ResolvedEvent}
    (h : currentStint self events = []) : classifyCandidate events self cutoff = .unresolved := by
  rw [classifyCandidate]
  split
  · rfl
  · rename_i last priorRuns hruns
    refine if_pos fun htarget => ?_
    have hlast : (collapseRuns events).getLast? = some last := by
      rw [List.getLast?_eq_head?_reverse, hruns, List.head?_cons]
    have hevent := getLast?_collapseRuns events
    rw [hlast, Option.map_some, htarget] at hevent
    obtain ⟨e, he, hself⟩ := Option.map_eq_some_iff.mp hevent.symm
    obtain ⟨init, rfl⟩ : ∃ init, events = init ++ [e] :=
      ⟨events.dropLast, (List.dropLast_append_getLast? e he).symm⟩
    rw [currentStint, List.rtakeWhile_concat_pos _ _ e (by simpa using hself)] at h
    simp at h

variable {before block : List ResolvedEvent} {e : ResolvedEvent}

theorem classifyCandidate_of_old (hblock : ∀ b ∈ e :: block, b.target = some self)
    (hnew : ∀ prev, before.getLast? = some prev → prev.target ≠ some self)
    (hold : e.epoch < cutoff) : classifyCandidate (before ++ e :: block) self cutoff = .base := by
  rw [classifyCandidate, collapseRuns_block hblock hnew, List.reverse_append]
  simp [hold]

theorem classifyCandidate_of_null {x : ResolvedEvent}
    (hblock : ∀ b ∈ e :: block, b.target = some self) (hx : x.target = none)
    (he : cutoff ≤ e.epoch) :
    classifyCandidate (before ++ x :: e :: block) self cutoff =
      if cutoff ≤ x.epoch ∧ ¬ ∃ run, (collapseRuns before).getLast? = some run ∧
        run.target = some self ∧ run.epoch < cutoff
      then .arrival .unknown false else .unresolved := by
  have hshape : before ++ x :: e :: block = (before ++ [x]) ++ e :: block := by simp
  rw [hshape, classifyCandidate, collapseRuns_block hblock (by simp [hx]),
    collapseRuns_concat_of_ne (.inl hx), List.reverse_append, List.reverse_append]
  simp only [List.reverse_singleton, List.singleton_append, ne_eq, not_true_eq_false, if_false,
    not_lt.mpr he, hx]
  rw [List.getLast?_eq_head?_reverse]
  rcases (collapseRuns before).reverse with _ | ⟨run, runs⟩
  · by_cases hin : cutoff ≤ x.epoch <;> simp [hin]
  · by_cases hin : cutoff ≤ x.epoch
    · by_cases hrun : run.target = some self ∧ run.epoch < cutoff <;> simp [hin, hrun]
    · simp [hin]

end Answer

/-! ### Completions -/

theorem Completes.chronological {events events' : List ResolvedEvent} (h : Completes events events')
    (hchron : Chronological events) : Chronological events' := by
  have hepochs : events'.map (·.epoch) = events.map (·.epoch) := by
    clear hchron
    induction h with
    | nil => rfl
    | cons hfill _ ih => simp [hfill.epoch_eq, ih]
  have hiff : ∀ l : List ResolvedEvent, Chronological l ↔ (l.map (·.epoch)).Pairwise (· ≤ ·) :=
    fun l => by rw [List.pairwise_map, Chronological]
  rw [hiff, hepochs, ← hiff]
  exact hchron

theorem Completes.append {before rest : List ResolvedEvent} : ∀ {events' : List ResolvedEvent},
    Completes (before ++ rest) events' →
      ∃ before' rest', Completes before before' ∧ Completes rest rest' ∧
        events' = before' ++ rest' := by
  induction before with
  | nil => exact fun h => ⟨[], _, .nil, h, rfl⟩
  | cons e before ih =>
    intro events' h
    obtain ⟨e', tail', hfill, htail, rfl⟩ := List.forall₂_cons_left_iff.mp h
    obtain ⟨before', rest', hbefore, hrest, rfl⟩ := ih htail
    exact ⟨e' :: before', rest', .cons hfill hbefore, hrest, rfl⟩

theorem Completes.possible {events events' : List ResolvedEvent} {self : String}
    (h : Completes events events') :
    ∀ e' ∈ currentStint self events', ∃ e ∈ possibleStint self events, e.epoch = e'.epoch := by
  have hrev : List.Forall₂ ResolvedEvent.Fills events.reverse events'.reverse :=
    List.forall₂_reverse_iff.mpr h
  rw [currentStint, possibleStint, List.rtakeWhile, List.rtakeWhile]
  simp only [List.mem_reverse]
  generalize events.reverse = l at hrev ⊢
  generalize events'.reverse = l' at hrev ⊢
  induction hrev with
  | nil => simp
  | @cons e e' l l' hfill _ ih =>
    intro b hb
    by_cases hself : e'.target = some self
    · -- an event completed to `self` was `self` or unresolved before
      have hmay : (e.target == some self || e.target == none) = true := by
        rcases htarget : e.target with _ | t
        · rfl
        · obtain rfl : t = self := by simpa [hself] using (hfill.keeps t htarget).symm
          simp
      rw [List.takeWhile_cons_of_pos (by simpa using hself)] at hb
      rw [List.takeWhile_cons, if_pos hmay]
      rcases List.mem_cons.mp hb with rfl | hb
      · exact ⟨e, by simp, hfill.epoch_eq.symm⟩
      · obtain ⟨a, ha, hab⟩ := ih b hb
        exact ⟨a, List.mem_cons_of_mem _ ha, hab⟩
    · rw [List.takeWhile_cons_of_neg (by simpa using hself)] at hb
      cases hb

/-- The completion that reads every unresolved target as `self`. -/
def fillSelf (self : String) (e : ResolvedEvent) : ResolvedEvent :=
  { e with target := some (e.target.getD self) }

theorem completes_fillSelf (self : String) (events : List ResolvedEvent) :
    Completes events (events.map (fillSelf self)) := by
  rw [Completes, List.forall₂_map_right_iff, List.forall₂_same]
  exact fun e _ => ⟨rfl, rfl, rfl, by simp [fillSelf], fun t ht => by simp [fillSelf, ht]⟩

theorem currentStint_fillSelf (self : String) (events : List ResolvedEvent) :
    currentStint self (events.map (fillSelf self))
      = (possibleStint self events).map (fillSelf self) := by
  have hpred : (fun e : ResolvedEvent => e.target == some self) ∘ fillSelf self
      = fun e => e.target == some self || e.target == none := by
    funext e
    rcases h : e.target with _ | t <;> simp [fillSelf, h]
  rw [currentStint, possibleStint, List.rtakeWhile, List.rtakeWhile, ← List.map_reverse,
    List.takeWhile_map, hpred, List.map_reverse]

/-! ### When the answer is right -/

section Sound

variable {events : List ResolvedEvent} {self : String} {cutoff : ℤ}

theorem not_sound_of_hiddenStart (hchron : Chronological events)
    (h : HiddenStart events self cutoff) : ¬ SoundAnswer events self cutoff := by
  obtain ⟨before, x, stint, rfl, hne, hstint, hx, hin, hrecent, b, hb, hold⟩ := h
  obtain ⟨e, block, rfl⟩ := List.exists_cons_of_ne_nil hne
  have hxe : x.epoch ≤ e.epoch :=
    (hchron.of_suffix (List.suffix_append before _)).head_le e (by simp)
  have hanswer : classifyCandidate (before ++ x :: e :: block) self cutoff
      = .arrival .unknown false := by
    have hrun : ¬ ∃ run, (collapseRuns before).getLast? = some run ∧ run.target = some self ∧
        run.epoch < cutoff := by
      rw [oldRun_iff (hchron.sublist (List.sublist_append_left before (x :: e :: block)))]
      rintro ⟨e', he', hlt⟩
      exact absurd (hrecent e' he') (not_le.mpr hlt)
    rw [classifyCandidate_of_null hstint hx (hin.trans hxe), if_pos ⟨hin, hrun⟩]
  intro hsound
  -- read every unresolved target as `self`: the stint then reaches back to `b`
  have hfill := completes_fillSelf self (before ++ x :: e :: block)
  obtain ⟨start, hstart, hge⟩ := (hsound _ hfill).1 _ _ hanswer
  refine absurd ((stintStart_lt_iff (hfill.chronological hchron) hstart).mpr ?_) (not_lt.mpr hge)
  rw [currentStint_fillSelf, possibleStint, rtakeWhile_append_of_pos, ← possibleStint]
  · exact ⟨fillSelf self b, List.mem_map_of_mem (List.mem_append_left _ hb), hold⟩
  · exact List.forall_mem_cons.mpr ⟨by simp [hx], fun e' he' => by simp [hstint e' he']⟩

/-- A completion of a history that ends on `self` has a stint, which ends with that of the
history. -/
theorem Completes.stint {before block : List ResolvedEvent} {e : ResolvedEvent}
    (hblock : ∀ b ∈ e :: block, b.target = some self)
    {events' : List ResolvedEvent} (h : Completes (before ++ e :: block) events') :
    ∃ before' e' block', events' = before' ++ e' :: block' ∧ Completes before before' ∧
      e'.epoch = e.epoch ∧ currentStint self events' = currentStint self before' ++ e' :: block' ∧
      ∀ b' ∈ e' :: block', ∃ b ∈ e :: block, b.epoch = b'.epoch := by
  obtain ⟨before', rest', hbefore, hrest, rfl⟩ := h.append
  obtain ⟨e', block', hfill, hblock', rfl⟩ := List.forall₂_cons_left_iff.mp hrest
  have hself : ∀ {l l'}, List.Forall₂ ResolvedEvent.Fills l l' → (∀ b ∈ l, b.target = some self) →
      ∀ b' ∈ l', b'.target = some self ∧ ∃ b ∈ l, b.epoch = b'.epoch := by
    intro l l' hl hall
    induction hl with
    | nil => simp
    | cons hf _ ih =>
      obtain ⟨ha, hall⟩ := List.forall_mem_cons.mp hall
      refine List.forall_mem_cons.mpr ⟨⟨hf.keeps self ha, _, by simp, hf.epoch_eq.symm⟩, ?_⟩
      intro b' hb'
      obtain ⟨ht, b, hb, heq⟩ := ih hall b' hb'
      exact ⟨ht, b, by simp [hb], heq⟩
  have hall := hself hrest hblock
  refine ⟨before', e', block', rfl, hbefore, hfill.epoch_eq, ?_, fun b' hb' => (hall b' hb').2⟩
  exact rtakeWhile_append_of_pos fun b' hb' => by simpa using (hall b' hb').1

variable {before before' block : List ResolvedEvent} {e : ResolvedEvent}

/-- What an answer must grant: an arrival only if no stint reaches back past the cutoff in front
of the run of `self`, and base never. -/
private def Grants (self : String) (cutoff : ℤ) (before' : List ResolvedEvent)
    (answer : Classification) : Prop :=
  (∀ source returning, answer = .arrival source returning →
    ∀ b ∈ currentStint self before', cutoff ≤ b.epoch) ∧ answer ≠ .base

private theorem grants_of_first (hblock : ∀ b ∈ e :: block, b.target = some self)
    (hrecent : cutoff ≤ e.epoch) :
    Grants self cutoff [] (classifyCandidate (e :: block) self cutoff) := by
  refine ⟨fun _ _ _ b hb => by simp [currentStint] at hb, ?_⟩
  have hfirst : ∀ prev, ([] : List ResolvedEvent).getLast? = some prev →
      prev.target ≠ some self := by simp
  have hruns := collapseRuns_block hblock hfirst
  rw [List.nil_append] at hruns
  rw [classifyCandidate, hruns]
  simp [not_lt.mpr hrecent, collapseRuns]

private theorem grants_of_resolved {x x' : ResolvedEvent} {t : String}
    (hblock : ∀ b ∈ e :: block, b.target = some self) (hrecent : cutoff ≤ e.epoch)
    (hx : x.target = some t) (hne : t ≠ self) (hfill : x.Fills x') :
    Grants self cutoff (before' ++ [x'])
      (classifyCandidate (before ++ [x] ++ e :: block) self cutoff) := by
  have hx' : x'.target ≠ some self := by
    rw [hfill.keeps t hx]
    simpa using hne
  refine ⟨fun _ _ _ b hb => by simp [currentStint_concat_of_ne hx'] at hb, ?_⟩
  -- the run in front ends with that event, so its target is known
  have hlast := getLast?_collapseRuns (before ++ [x])
  rw [List.getLast?_concat, Option.map_some, hx, List.getLast?_eq_head?_reverse] at hlast
  rw [classifyCandidate, collapseRuns_block hblock (by simpa [hx] using hne), List.reverse_append]
  rcases hruns : (collapseRuns (before ++ [x])).reverse with _ | ⟨run, runs⟩
  · simp [hruns] at hlast
  · rw [hruns, List.head?_cons, Option.map_some, Option.some.injEq] at hlast
    simp only [List.reverse_singleton, List.singleton_append, ne_eq, not_true_eq_false,
      if_false, not_lt.mpr hrecent, hlast]
    split_ifs <;> simp

private theorem grants_of_null {x x' : ResolvedEvent}
    (hchron : Chronological (before ++ [x] ++ e :: block))
    (hvisible : ¬ HiddenStart (before ++ [x] ++ e :: block) self cutoff)
    (hblock : ∀ b ∈ e :: block, b.target = some self) (hrecent : cutoff ≤ e.epoch)
    (hx : x.target = none) (hcompletes : Completes (before ++ [x]) (before' ++ [x'])) :
    Grants self cutoff (before' ++ [x'])
      (classifyCandidate (before ++ [x] ++ e :: block) self cutoff) := by
  rw [List.append_assoc, List.singleton_append] at hchron hvisible ⊢
  rw [classifyCandidate_of_null hblock hx hrecent]
  split_ifs with hcond
  · obtain ⟨hin, hrun⟩ := hcond
    rw [oldRun_iff (hchron.sublist (List.sublist_append_left ..))] at hrun
    push Not at hrun
    refine ⟨fun _ _ _ b' hb' => ?_, by simp⟩
    obtain ⟨b, hb, heq⟩ := hcompletes.possible b' hb'
    rw [possibleStint, List.rtakeWhile_concat_pos _ _ x (by simp [hx]), ← possibleStint] at hb
    rw [← heq]
    rcases List.mem_append.mp hb with hb | hb
    · -- an old event further back would hide the start
      by_contra hlt
      exact hvisible ⟨before, x, e :: block, rfl, by simp, hblock, hx, hin, hrun, b, hb,
        not_le.mp hlt⟩
    · rw [List.mem_singleton.mp hb]
      exact hin
  · exact ⟨by simp, by simp⟩

/-- **When the answer is right**: for every completion, exactly if no start is hidden. -/
theorem sound_classifyCandidate_iff (hchron : Chronological events) :
    SoundAnswer events self cutoff ↔ ¬ HiddenStart events self cutoff := by
  refine ⟨fun hsound hhidden => not_sound_of_hiddenStart hchron hhidden hsound,
    fun hvisible events' hcompletes => ?_⟩
  obtain ⟨before, hsplit, hbefore⟩ := rtakeWhile_split (fun e => e.target == some self) events
  rw [← currentStint] at hsplit
  have hself : ∀ e ∈ currentStint self events, e.target = some self := fun e he => by
    simpa using List.mem_rtakeWhile_imp he
  have hnew : ∀ prev, before.getLast? = some prev → prev.target ≠ some self :=
    fun prev hprev => by simpa using hbefore prev hprev
  rcases hstint : currentStint self events with _ | ⟨e, block⟩
  · rw [classifyCandidate_of_stint_nil hstint]
    exact ⟨by simp, by simp⟩
  rw [hstint] at hsplit hself
  have hchron' := hcompletes.chronological hchron
  subst hsplit
  obtain ⟨before', e', block', rfl, hbefore', he', hcurrent, hrest⟩ := hcompletes.stint hself
  obtain ⟨start, hstart⟩ : ∃ start, stintStart self (before' ++ e' :: block') = some start := by
    rw [stintStart, hcurrent]
    cases currentStint self before' <;> exact ⟨_, rfl⟩
  have hlt : start < cutoff ↔ _ := stintStart_lt_iff hchron' hstart
  rw [hcurrent] at hlt
  by_cases hold : e.epoch < cutoff
  · -- the newest run of `self` is old, and every stint contains its first event
    rw [classifyCandidate_of_old hself hnew hold]
    exact ⟨by simp, fun _ => ⟨start, hstart, hlt.mpr ⟨e', by simp, he' ▸ hold⟩⟩⟩
  rw [not_lt] at hold
  -- the newest run is recent: what matters is the event in front of it
  have hgrants : Grants self cutoff before'
      (classifyCandidate (before ++ e :: block) self cutoff) := by
    rcases List.eq_nil_or_concat before with rfl | ⟨init, x, rfl⟩
    · obtain rfl := List.forall₂_nil_left_iff.mp hbefore'
      exact grants_of_first hself hold
    · rw [List.concat_eq_append] at *
      obtain ⟨init', last', hinit', hlast', rfl⟩ := hbefore'.append
      obtain ⟨x', nil', hx', hnil', rfl⟩ := List.forall₂_cons_left_iff.mp hlast'
      obtain rfl := List.forall₂_nil_left_iff.mp hnil'
      rcases htarget : x.target with _ | t
      · exact grants_of_null hchron hvisible hself hold htarget hbefore'
      · exact grants_of_resolved hself hold htarget
          (fun h => hnew x (by simp) (h ▸ htarget)) hx'
  refine ⟨fun source returning hanswer => ⟨start, hstart, ?_⟩, fun hbase => absurd hbase hgrants.2⟩
  -- an old event would lie in front of the run, or in it and so after its first one
  rw [← not_lt, hlt]
  rintro ⟨b', hb', hold'⟩
  rcases List.mem_append.mp hb' with hb' | hb'
  · exact absurd (hgrants.1 source returning hanswer b' hb') (not_le.mpr hold')
  · obtain ⟨b, hb, heq⟩ := hrest b' hb'
    have hle := (hchron.of_suffix (List.suffix_append before (e :: block))).head_le b hb
    omega

end Sound

/-- A stint with a renewed certificate inside the window. -/
theorem sound_classifyCandidate_iff_renewal :
    SoundAnswer [⟨"a", 610, 1, some "drep1a"⟩, ⟨"b", 620, 2, some "drep1self"⟩,
        ⟨"c", 649, 3, some "drep1self"⟩] "drep1self" 640 ↔
      ¬ HiddenStart [⟨"a", 610, 1, some "drep1a"⟩, ⟨"b", 620, 2, some "drep1self"⟩,
        ⟨"c", 649, 3, some "drep1self"⟩] "drep1self" 640 :=
  sound_classifyCandidate_iff (by unfold Chronological; decide)

/-- Two unresolved events in front of the newest run of `self` hide the run in which the stint
may have begun. -/
theorem not_sound_classifyCandidate :
    ¬ ∀ events self cutoff, Chronological events → SoundAnswer events self cutoff := by
  intro h
  have hsound := h [⟨"a", 620, 1, some "drep1self"⟩, ⟨"b", 642, 2, none⟩, ⟨"c", 643, 3, none⟩,
    ⟨"d", 645, 4, some "drep1self"⟩] "drep1self" 640 (by unfold Chronological; decide)
  obtain ⟨start, hstart, hge⟩ :=
    (hsound _ (completes_fillSelf "drep1self" _)).1 .unknown false (by decide +kernel)
  rw [show stintStart "drep1self" _ = some 620 by decide +kernel, Option.some.injEq] at hstart
  omega

end DrepTalk
