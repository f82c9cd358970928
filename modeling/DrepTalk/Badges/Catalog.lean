import Mathlib.Data.List.Basic

/-!
# The badge catalog

`config/badges.ts`, by what the engine and the gallery read of it: a badge has tiers, or a goal of
its own, or neither; a hidden one is not shown until it is earned.
-/

namespace DrepTalk

inductive BadgeCategory
  | drep
  | spo
  | cc
  | proposer
  | forum
  | crossover
  deriving DecidableEq

/-- The thresholds of bronze, silver and gold. -/
structure BadgeTiers where
  bronze : ℕ
  silver : ℕ
  gold : ℕ

structure Badge where
  id : String
  category : BadgeCategory
  hidden : Bool
  tiers : Option BadgeTiers
  goal : Option ℕ

def Badge.single (id : String) (category : BadgeCategory) (goal : Option ℕ) : Badge :=
  ⟨id, category, false, none, goal⟩

def Badge.tiered (id : String) (category : BadgeCategory) (bronze silver gold : ℕ) : Badge :=
  ⟨id, category, false, some ⟨bronze, silver, gold⟩, none⟩

/-- A badge that is not shown until it is earned. -/
def Badge.mystery (id : String) (category : BadgeCategory) : Badge := ⟨id, category, true, none, none⟩

def BADGES : List Badge :=
  [.single "first-vote" .drep none,
    .tiered "active-voice" .drep 10 50 150,
    .tiered "shows-the-work" .drep 10 50 150,
    .tiered "iron-streak" .drep 6 18 73,
    .single "full-spectrum" .drep (some 7),
    .single "constitution-voter" .drep none,
    .single "hard-fork-voter" .drep none,
    .single "genesis-drep" .drep none,
    .single "veteran" .drep none,
    .single "identified" .drep none,
    .tiered "pool-voice" .spo 3 8 15,
    .single "hard-fork-ready" .spo none,
    .single "guardian" .cc none,
    .single "reasoned-guardian" .cc (some 10),
    .single "proposer" .proposer none,
    .single "serial-proposer" .proposer (some 5),
    .single "enacted" .proposer none,
    .single "hello-governance" .forum none,
    .single "opening-move" .forum none,
    .tiered "regular" .forum 10 50 250,
    .tiered "well-said" .forum 10 50 200,
    .single "crowd-favorite" .forum (some 10),
    .single "sparked-a-debate" .forum (some 5),
    .tiered "forum-streak" .forum 6 18 73,
    .tiered "on-the-record" .forum 5 25 75,
    .tiered "says-and-does" .crossover 5 25 75,
    .single "open-book" .crossover (some 10),
    .single "deliberator" .crossover (some 10),
    .mystery "lone-voice" .drep,
    .mystery "steady-hand" .drep,
    .mystery "triple-crown" .forum,
    .mystery "buzzer-beater" .drep,
    .mystery "early-bird" .drep,
    .mystery "necromancer" .forum,
    .mystery "century-thread" .forum,
    .mystery "boundary-rider" .forum,
    .mystery "collector" .forum]

/-- `forumBadgeIds`: the visible forum badges. -/
def forumBadgeIds : List String :=
  (BADGES.filter fun b => b.category == .forum && !b.hidden).map (·.id)

theorem forumBadgeIds_nodup : forumBadgeIds.Nodup := by decide

end DrepTalk
