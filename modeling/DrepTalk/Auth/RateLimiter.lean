import DrepTalk.Library.FixedWindow
import Mathlib.Tactic.Linarith

/-!
# The rate limiter

`decideRate` of `src/lib/rate.ts`, and the durable object that keeps its state for one key
(`src/lib/rateLimiterDO.ts`). A window opens with a request when there is none, or when the last one
has passed; it lets so many requests through. Peeking asks for the decision and stores nothing.

**Runs** (`rateRun`) are the requests on one key one after the other, as the object serves them.
What they admit is counted in fixed windows (`windowed_rateRun`), and with this come the bounds.
Times are in milliseconds.
-/

namespace DrepTalk

structure RateWindow where
  start : ℚ
  count : ℕ
  deriving DecidableEq

/-- `decideRate`: whether the request is allowed, and the window to keep. -/
def decideRate (prev : Option RateWindow) (max : ℕ) (windowSec now : ℚ) : Bool × RateWindow :=
  if max < 1 then (false, prev.getD ⟨now, 0⟩)
  else
    match prev with
    | none => (true, ⟨now, 1⟩)
    | some prev =>
      if windowSec * 1000 ≤ now - prev.start then (true, ⟨now, 1⟩)
      else if max ≤ prev.count then (false, prev)
      else (true, ⟨prev.start, prev.count + 1⟩)

/-! ### The durable object -/

/-- `RateLimiter.limit`: the answer, and what is stored after. -/
def RateLimiter.limit (storage : Option RateWindow) (max : ℕ) (windowSec now : ℚ) :
    Bool × Option RateWindow :=
  let decision := decideRate storage max windowSec now
  (decision.1, if some decision.2 ≠ storage then some decision.2 else storage)

def RateLimiter.peek (storage : Option RateWindow) (max : ℕ) (windowSec now : ℚ) : Bool :=
  (decideRate storage max windowSec now).1

inductive RateRequest
  | limit (now : ℚ)
  | peek (now : ℚ)

def RateRequest.now : RateRequest → ℚ
  | limit now => now
  | peek now => now

section

variable (max : ℕ) (windowSec : ℚ)

/-- A request on a key: the answer, and what is stored after. -/
def serveRate (storage : Option RateWindow) : RateRequest → Bool × Option RateWindow
  | .limit now => RateLimiter.limit storage max windowSec now
  | .peek now => (RateLimiter.peek storage max windowSec now, storage)

/-- What is stored, and the requests let through so far, each with the start of its window. -/
structure RateRun where
  storage : Option RateWindow
  admitted : List (Stamp ℚ)

/-- What a request adds to those let through. -/
def admittedBy (answer : Bool) (storage : Option RateWindow) : RateRequest → List (Stamp ℚ)
  | .limit now => if answer then storage.toList.map fun window => ⟨window.start, now⟩ else []
  | .peek _ => []

def RateRun.step (run : RateRun) (request : RateRequest) : RateRun :=
  let served := serveRate max windowSec run.storage request
  ⟨served.2, run.admitted ++ admittedBy served.1 served.2 request⟩

def rateRun (requests : List RateRequest) : RateRun :=
  requests.foldl (RateRun.step max windowSec) ⟨none, []⟩

end

/-! ### One request -/

section

variable {max : ℕ} {windowSec now : ℚ} {storage : Option RateWindow}

theorem decideRate_cases (hmax : 1 ≤ max) (storage : Option RateWindow) (windowSec now : ℚ) :
    ((∀ w ∈ storage, w.start + windowSec * 1000 ≤ now) ∧
      decideRate storage max windowSec now = (true, ⟨now, 1⟩)) ∨
    (∃ w ∈ storage, now < w.start + windowSec * 1000 ∧ max ≤ w.count ∧
      decideRate storage max windowSec now = (false, w)) ∨
    ∃ w ∈ storage, now < w.start + windowSec * 1000 ∧ w.count < max ∧
      decideRate storage max windowSec now = (true, ⟨w.start, w.count + 1⟩) := by
  unfold decideRate
  rw [if_neg (Nat.not_lt.mpr hmax)]
  rcases storage with _ | w
  · exact .inl ⟨nofun, rfl⟩
  · dsimp only
    split_ifs with hpassed hfull
    · refine .inl ⟨fun v hv => ?_, rfl⟩
      obtain rfl := Option.mem_some_iff.mp hv
      linarith
    · exact .inr (.inl ⟨w, rfl, by linarith, hfull, rfl⟩)
    · exact .inr (.inr ⟨w, rfl, by linarith, by omega, rfl⟩)

theorem limit_storage (storage : Option RateWindow) (max : ℕ) (windowSec now : ℚ) :
    (RateLimiter.limit storage max windowSec now).2 =
      some (decideRate storage max windowSec now).2 := by
  rw [RateLimiter.limit]
  split_ifs with hchanged
  · rfl
  · exact (not_not.mp hchanged).symm

theorem serveRate_storage (hmax : 1 ≤ max) {request : RateRequest}
    (h : request = .peek request.now ∨ (serveRate max windowSec storage request).1 = false) :
    (serveRate max windowSec storage request).2 = storage := by
  cases request with
  | peek now => rfl
  | limit now =>
    have hdenied := h.resolve_left (by simp)
    rw [serveRate, limit_storage]
    rcases decideRate_cases hmax storage windowSec now with
      ⟨-, hdecision⟩ | ⟨w, hw, -, -, hdecision⟩ | ⟨w, -, -, -, hdecision⟩
    · rw [serveRate, RateLimiter.limit, hdecision] at hdenied
      cases hdenied
    · rw [hdecision]
      exact (Option.mem_def.mp hw).symm
    · rw [serveRate, RateLimiter.limit, hdecision] at hdenied
      cases hdenied

/-! ### Runs -/

/-- What holds of a key after some requests: what was let through is counted in windows, and what is
stored is the last of them, which opened at one of the requests. -/
structure RateInv (max : ℕ) (windowSec : ℚ) (requests : List RateRequest) (run : RateRun) :
    Prop where
  windowed : Windowed (windowSec * 1000) max run.admitted
  fresh : run.storage = none → run.admitted = []
  latest : ∀ w ∈ run.storage, ∀ a ∈ run.admitted,
    a.window = w.start ∨ a.window + windowSec * 1000 ≤ w.start
  counted : ∀ w ∈ run.storage, run.admitted.countP (fun a => a.window = w.start) ≤ w.count
  opened : ∀ w ∈ run.storage, ∃ request ∈ requests, request.now = w.start

variable {requests : List RateRequest} {run : RateRun} {request : RateRequest}

theorem RateInv.more (h : RateInv max windowSec requests run) (request : RateRequest) :
    RateInv max windowSec (requests ++ [request]) run :=
  { h with
    opened := fun w hw =>
      have ⟨before, hbefore, heq⟩ := h.opened w hw
      ⟨before, List.mem_append_left _ hbefore, heq⟩ }

theorem RateInv.admit (h : RateInv max windowSec requests run) (hwindow : 0 < windowSec * 1000)
    {w : RateWindow} (hnow : w.start ≤ now ∧ now < w.start + windowSec * 1000)
    (hlatest : ∀ a ∈ run.admitted, a.window = w.start ∨ a.window + windowSec * 1000 ≤ w.start)
    (hcount : run.admitted.countP (fun a => a.window = w.start) < w.count) (hmax : w.count ≤ max)
    (hopened : ∃ before ∈ requests ++ [.limit now], before.now = w.start) :
    RateInv max windowSec (requests ++ [.limit now])
      ⟨some w, run.admitted ++ [⟨w.start, now⟩]⟩ := by
  refine ⟨h.windowed.concat hnow hlatest (hcount.trans_le hmax) hwindow, fun hnone => ?_,
    fun v hv a ha => ?_, fun v hv => ?_, fun v hv => ?_⟩
  · cases hnone
  · obtain rfl := Option.mem_some_iff.mp hv
    rcases List.mem_append.mp ha with ha | ha
    · exact hlatest a ha
    · obtain rfl := List.mem_singleton.mp ha
      exact .inl rfl
  · obtain rfl := Option.mem_some_iff.mp hv
    rw [List.countP_append, List.countP_cons_of_pos (by simp), List.countP_nil]
    exact hcount
  · obtain rfl := Option.mem_some_iff.mp hv
    exact hopened

theorem RateInv.step (hmax : 1 ≤ max) (hwindow : 0 < windowSec)
    (h : RateInv max windowSec requests run) (hclock : ∀ r ∈ requests, r.now ≤ request.now) :
    RateInv max windowSec (requests ++ [request]) (run.step max windowSec request) := by
  have hwidth : 0 < windowSec * 1000 := by linarith
  cases request with
  | peek now =>
    have hrun : run.step max windowSec (.peek now) = run := by
      rw [RateRun.step, serveRate, admittedBy, List.append_nil]
    rw [hrun]
    exact h.more _
  | limit now =>
    have hstored := limit_storage run.storage max windowSec now
    have hself : (RateRequest.limit now) ∈ requests ++ [.limit now] := by simp
    rcases decideRate_cases hmax run.storage windowSec now with
      ⟨hpassed, hdecision⟩ | ⟨w, hw, -, -, hdecision⟩ | ⟨w, hw, hopen, hroom, hdecision⟩
    · -- a new window
      have hrun : run.step max windowSec (.limit now) =
          ⟨some ⟨now, 1⟩, run.admitted ++ [⟨now, now⟩]⟩ := by
        rw [RateRun.step, serveRate, hstored, RateLimiter.limit, hdecision]
        rfl
      have hbefore : ∀ a ∈ run.admitted, a.window + windowSec * 1000 ≤ now := by
        intro a ha
        rcases hstorage : run.storage with _ | w
        · rw [h.fresh hstorage] at ha
          cases ha
        · have hwnow := hpassed w hstorage
          rcases h.latest w hstorage a ha with heq | hle
          · rw [heq]
            exact hwnow
          · linarith
      have hnone : run.admitted.countP (fun a => a.window = now) = 0 := by
        rw [List.countP_eq_zero]
        intro a ha heq
        have hle := hbefore a ha
        rw [decide_eq_true_eq] at heq
        linarith
      rw [hrun]
      exact h.admit hwidth (w := ⟨now, 1⟩) ⟨le_rfl, by linarith⟩ (fun a ha => .inr (hbefore a ha))
        (hnone ▸ Nat.zero_lt_one) hmax ⟨_, hself, rfl⟩
    · -- denied
      have hrun : run.step max windowSec (.limit now) = run := by
        rw [RateRun.step, serveRate, hstored, RateLimiter.limit, hdecision,
          ← Option.mem_def.mp hw]
        exact congrArg (RateRun.mk run.storage) (List.append_nil _)
      rw [hrun]
      exact h.more _
    · -- another one in the window that is open
      have hrun : run.step max windowSec (.limit now) =
          ⟨some ⟨w.start, w.count + 1⟩, run.admitted ++ [⟨w.start, now⟩]⟩ := by
        rw [RateRun.step, serveRate, hstored, RateLimiter.limit, hdecision]
        rfl
      obtain ⟨before, hbefore, hstart⟩ := h.opened w hw
      rw [hrun]
      exact h.admit hwidth (w := ⟨w.start, w.count + 1⟩)
        ⟨hstart ▸ hclock before hbefore, hopen⟩ (h.latest w hw)
        (Nat.lt_succ_of_le (h.counted w hw)) hroom
        ⟨before, List.mem_append_left _ hbefore, hstart⟩

/-- **Every run** keeps the windows apart and counts in them. -/
theorem rateInv_rateRun (hmax : 1 ≤ max) (hwindow : 0 < windowSec)
    (hclock : requests.Pairwise fun r r' => r.now ≤ r'.now) :
    RateInv max windowSec requests (rateRun max windowSec requests) := by
  induction requests using List.reverseRecOn with
  | nil =>
    exact ⟨Windowed.nil _ _, fun _ => rfl, nofun,
      nofun, nofun⟩
  | append_singleton requests request ih =>
    obtain ⟨hbefore, -, hlast⟩ := List.pairwise_append.mp hclock
    rw [rateRun, List.foldl_append]
    exact (ih hbefore).step hmax hwindow fun r hr => hlast r hr request (List.mem_singleton_self _)

/-- **The rate limiter**: so many in every window, twice as many in any span; denying and asking
change nothing; asking predicts; and who waits for a window is let through. -/
theorem rateLimiter_spec (hmax : 1 ≤ max) (hwindow : 1 ≤ windowSec)
    (hclock : requests.Pairwise fun r r' => r.now ≤ r'.now) :
    (∀ a ∈ (rateRun max windowSec requests).admitted,
      (rateRun max windowSec requests).admitted.countP
        (fun b => a.window ≤ b.time ∧ b.time < a.window + windowSec * 1000) ≤ max) ∧
    (∀ t, (rateRun max windowSec requests).admitted.countP
      (fun b => t ≤ b.time ∧ b.time ≤ t + windowSec * 1000) ≤ 2 * max) ∧
    (∀ (storage : Option RateWindow) (request : RateRequest),
      request = .peek request.now ∨ (serveRate max windowSec storage request).1 = false →
      (serveRate max windowSec storage request).2 = storage) ∧
    (∀ (storage : Option RateWindow) (now : ℚ), (serveRate max windowSec storage (.peek now)).1 =
      (serveRate max windowSec storage (.limit now)).1) ∧
    ∀ now, (∀ r ∈ requests, r.now + windowSec * 1000 ≤ now) →
      (serveRate max windowSec (rateRun max windowSec requests).storage (.limit now)).1 = true := by
  have hinv := rateInv_rateRun hmax (one_pos.trans_le hwindow) hclock
  refine ⟨fun a ha => hinv.windowed.countP_window_le ha, hinv.windowed.countP_span_le,
    fun storage request => serveRate_storage hmax, fun storage now => rfl, fun now hsilent => ?_⟩
  rw [serveRate, RateLimiter.limit]
  rcases decideRate_cases hmax (rateRun max windowSec requests).storage windowSec now with
    ⟨-, hdecision⟩ | ⟨w, hw, hopen, -, -⟩ | ⟨w, hw, hopen, -, -⟩
  · rw [hdecision]
  · obtain ⟨before, hbefore, hstart⟩ := hinv.opened w hw
    exact absurd (hstart ▸ hsilent before hbefore) (not_le.mpr hopen)
  · obtain ⟨before, hbefore, hstart⟩ := hinv.opened w hw
    exact absurd (hstart ▸ hsilent before hbefore) (not_le.mpr hopen)

/-- Two in a second, and two more at its end. -/
def rateBurst : List RateRequest :=
  [.limit 0, .peek 500, .limit 999, .limit 999, .limit 1000, .limit 1001]

theorem rateLimiter_spec_burst :
    (rateRun 2 1 rateBurst).admitted.countP
      (fun b => (999 : ℚ) ≤ b.time ∧ b.time ≤ 999 + 1 * 1000) ≤ 2 * 2 :=
  (@rateLimiter_spec 2 1 rateBurst (by decide) (by decide) (by decide)).2.1 999

end

end DrepTalk
