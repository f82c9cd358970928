import Mathlib.Data.Int.Notation

/-!
# Epochs

The epochs of `src/lib/config/network.ts`: they have a fixed length, so one known boundary of a
network gives all others.
-/

namespace DrepTalk

/-- `epochAnchor` of a network. -/
structure EpochAnchor where
  epoch : ℤ
  unixSeconds : ℤ

namespace EpochAnchor

def length : ℤ := 5 * 24 * 60 * 60

def epochStartUnix (cfg : EpochAnchor) (epoch : ℤ) : ℤ :=
  cfg.unixSeconds + (epoch - cfg.epoch) * length

def epochStartMs (cfg : EpochAnchor) (epoch : ℤ) : ℤ := cfg.epochStartUnix epoch * 1000

def epochFromUnix (cfg : EpochAnchor) (unixSeconds : ℤ) : ℤ :=
  cfg.epoch + (unixSeconds - cfg.unixSeconds).fdiv length

end EpochAnchor

end DrepTalk
