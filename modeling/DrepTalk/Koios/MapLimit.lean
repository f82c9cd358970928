import DrepTalk.Library.Interleaving

/-!
# The bounded map over a list

`mapLimit` of `src/lib/koios/concurrency.ts`. At most `limit` workers share an index; each takes
the next item, calls `fn` with it and waits for the task. The call resolves when all have
returned; when one throws it rejects, and the others go on.

**Any order** (`mapLimit_right`). The tasks settle in any order, yet a call that resolves gives
what the plain loop gives: a hole below the index is owed by the worker that took the item.
-/

namespace DrepTalk

/-- What the workers of one call share. -/
structure MapShared (α β : Type*) where
  next : ℕ
  /-- `new Array(items.length)`, with its holes. -/
  results : List (Option β)
  /-- The items `fn` has been called with, in order. -/
  called : List α

/-- A worker is at the head of its loop, waits for the task of an item, or is done. -/
inductive MapWorker
  | taking
  | waiting (i : ℕ)
  | returned
  | threw (i : ℕ)
  deriving DecidableEq

variable {α β ε : Type*} (items : List α) (task : ℕ → Except ε β) (limit : ℕ)

/-- One step of `worker`. The call of `fn` with the item at `i` settles with `task i`. -/
def workerStep (s : MapShared α β) : MapWorker → Option (MapShared α β × MapWorker)
  | .taking =>
    match items[s.next]? with
    | none => some ({ s with next := s.next + 1 }, .returned)
    | some item =>
      some ({ s with next := s.next + 1, called := s.called ++ [item] }, .waiting s.next)
  | .waiting i =>
    match task i with
    | .ok r => some ({ s with results := s.results.set i (some r) }, .taking)
    | .error _ => some (s, .threw i)
  | .returned | .threw _ => none

def mapProgram : Program (MapShared α β) MapWorker where
  Start _ l := l = .taking
  Step s l s' l' := workerStep items task s l = some (s', l')
  Env _ _ := False

/-- One call of `mapLimit`, its workers interleaved. -/
def mapLimit := (mapProgram items task).system (Fin (min limit items.length))
  (· = ⟨0, .replicate items.length none, []⟩)

/-- What a call keeps, whatever the order. -/
def MapShared.Inv (s : MapShared α β) : Prop :=
  s.called = items.take s.next ∧ s.results.length = items.length ∧
    ∀ i r, s.results[i]? = some (some r) → task i = .ok r

/-- What a worker knows. -/
def MapWorker.Asserts (s : MapShared α β) : MapWorker → Prop
  | .returned => items.length ≤ s.next
  | .threw i => ∃ e, task i = .error e
  | _ => True

variable {items task limit} {s s' : MapShared α β} {l l' : MapWorker}

theorem workerStep_keeps (hs : s.Inv items task) (h : workerStep items task s l = some (s', l')) :
    s'.Inv items task ∧ l'.Asserts items task s' ∧ s.next ≤ s'.next := by
  obtain ⟨hcalled, hlength, hresult⟩ := hs
  rcases l with _ | i | _ | _ <;> rw [workerStep] at h
  · split at h <;> cases h
    · next hnone =>
      refine ⟨⟨?_, hlength, hresult⟩, Nat.le_succ_of_le ?_, Nat.le_succ _⟩
      · simp [List.take_add_one, hnone, hcalled]
      · exact List.getElem?_eq_none_iff.mp hnone
    · next hitem =>
      refine ⟨⟨?_, hlength, hresult⟩, trivial, Nat.le_succ _⟩
      simp [List.take_add_one, hitem, hcalled]
  · split at h <;> cases h
    · next r hr => exact ⟨⟨hcalled, by grind, by grind⟩, trivial, le_rfl⟩
    · next e he => exact ⟨⟨hcalled, hlength, hresult⟩, ⟨e, he⟩, le_rfl⟩
  · cases h
  · cases h

def mapSound : (mapProgram items task).Sound (· = ⟨0, .replicate items.length none, []⟩) where
  inv s := s.Inv items task
  asserts s l := l.Asserts items task s
  apart _ _ := True
  symm _ _ _ := trivial
  init s h := by
    subst h
    refine ⟨rfl, List.length_replicate, fun i r h => ?_⟩
    cases List.eq_of_mem_replicate (List.mem_of_getElem? h)
  start s l _ h := h ▸ ⟨trivial, fun _ _ => trivial⟩
  step s l s' l' hs _ h := ⟨(workerStep_keeps hs h).1, (workerStep_keeps hs h).2.1⟩
  noninterference s l s' l' m hs _ hm _ h := by
    refine ⟨?_, trivial⟩
    cases m with
    | returned => exact le_trans hm (workerStep_keeps hs h).2.2
    | _ => exact hm
  env _ _ _ h := h.elim

/-- A hole is owed by the worker that took the item. -/
theorem owed_of_step {i : ℕ} (h : workerStep items task s l = some (s', l'))
    (hneed : i < s'.next ∧ i < items.length ∧ s'.results[i]? = some none)
    (hother : ¬(l' = .waiting i ∨ l' = .threw i)) :
    (i < s.next ∧ i < items.length ∧ s.results[i]? = some none) ∧
      ¬(l = .waiting i ∨ l = .threw i) := by
  rcases l with _ | j | _ | _ <;> rw [workerStep] at h
  · split at h <;> cases h <;> grind
  · split at h <;> cases h <;> grind
  · cases h
  · cases h

/-- **`mapLimit` is the plain loop, whatever the order its tasks settle in.** -/
theorem mapLimit_right (hlimit : 0 < limit) {s} (h : (mapLimit items task limit).Reachable s) :
    s.shared.called <+: items ∧
      (∀ w, s.procs w = some .returned → s.shared.called = items) ∧
      (∀ w i, s.procs w = some (.threw i) → ∃ e, task i = .error e) ∧
      ((∀ w, s.procs w = some .returned) →
        s.shared.results.map (.map .ok) = (List.range items.length).map (some ∘ task)) := by
  obtain ⟨⟨hcalled, hlength, hresult⟩, hasserts, -⟩ := mapSound.holds h
  refine ⟨hcalled ▸ List.take_prefix .., fun w hw => ?_, fun w i hw => hasserts w _ hw,
    fun hdone => List.ext_getElem (by simp [hlength]) fun i hi _ => ?_⟩
  · rw [hcalled, List.take_of_length_le (hasserts w _ hw)]
  have hi : i < s.shared.results.length := by simpa using hi
  have hlt := hlength ▸ hi
  rcases hr : s.shared.results[i] with _ | r
  · have hnext := hasserts ⟨0, lt_min hlimit (Nat.zero_lt_of_lt hlt)⟩ _ (hdone _)
    obtain ⟨w, l, hw, rfl | rfl⟩ := mapSound.when.owed _ _
      (fun _ hs hneed => by subst hs; exact Nat.not_lt_zero i hneed.1)
      (fun _ _ _ _ _ _ _ _ h => owed_of_step h) (fun _ _ _ _ h => h.elim)
      (Program.reachable_none h) ⟨hlt.trans_le hnext, hlt, hr ▸ List.getElem?_eq_getElem hi⟩ <;>
      cases (hdone w).symm.trans hw
  · simp [hr, hresult i r (hr ▸ List.getElem?_eq_getElem hi)]

/-- The second worker overtakes the first. -/
theorem mapLimit_right_overtaken :
    ∃ s, (mapLimit ["a", "b"] (.ok : ℕ → Except String ℕ) 2).Reachable s ∧
      s.shared.results.map (.map .ok) =
        (List.range 2).map (some ∘ (.ok : ℕ → Except String ℕ)) := by
  have h₀ : (mapLimit ["a", "b"] (.ok : ℕ → Except String ℕ) 2).Reachable
      ⟨_, fun _ => none⟩ := .init ⟨rfl, fun _ => rfl⟩
  have h := Program.reachable_run (fun (_ : Unit) _ _ _ _ h => h)
    ((h₀.step (.start (i := (0 : Fin 2)) rfl rfl)).step (.start (i := (1 : Fin 2)) rfl rfl))
    (([0, 1, 1, 1, 0, 0] : List (Fin 2)).map fun w => (w, ())) (by decide +kernel)
  exact ⟨_, h, (mapLimit_right (by decide) h).2.2.2 (by decide +kernel)⟩

end DrepTalk
