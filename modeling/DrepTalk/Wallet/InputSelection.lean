import DrepTalk.Library.LargestFirst
import Mathlib.Algebra.Order.Ring.Int

/-!
# Inputs that cover an amount

`pickInputsToCover` of `src/lib/governance/walletUtxos.ts`: the inputs of a transaction are taken
from the wallet's UTxOs, the largest first, until their lovelace covers what the transaction needs.
A wallet that cannot cover it gives everything, and the builder reports the shortfall.
-/

namespace DrepTalk

/-- A UTxO, by its output reference and the lovelace of its assets, where it has some. -/
structure Utxo where
  outRef : String
  lovelace : Option ℤ

def utxoLovelace (utxo : Utxo) : ℤ := utxo.lovelace.getD 0

def totalLovelace (utxos : List Utxo) : ℤ :=
  utxos.foldl (fun sum utxo => sum + utxoLovelace utxo) 0

/-- The loop over the sorted UTxOs; nothing where they run out. -/
def pickUntilCovered (minLovelace : ℤ) : List Utxo → List Utxo → ℤ → Option (List Utxo)
  | [], _, _ => none
  | utxo :: rest, picked, sum =>
    if minLovelace ≤ sum + utxoLovelace utxo then some (picked ++ [utxo])
    else pickUntilCovered minLovelace rest (picked ++ [utxo]) (sum + utxoLovelace utxo)

def noSmaller (a b : Utxo) : Prop := utxoLovelace b ≤ utxoLovelace a

instance decidableNoSmaller : DecidableRel noSmaller := fun _ _ =>
  inferInstanceAs (Decidable (_ ≤ _))

instance totalNoSmaller : Std.Total noSmaller := ⟨fun _ _ => le_total (α := ℤ) _ _⟩

instance transNoSmaller : IsTrans Utxo noSmaller := ⟨fun _ _ _ hab hbc => le_trans hbc hab⟩

def largestFirst (utxos : List Utxo) : List Utxo := utxos.insertionSort noSmaller

def pickInputsToCover (utxos : List Utxo) (minLovelace : ℤ) : List Utxo :=
  let sorted := largestFirst utxos
  (pickUntilCovered minLovelace sorted [] 0).getD sorted

section

variable {utxos picked rest : List Utxo} {minLovelace sum : ℤ}

theorem totalLovelace_eq (utxos : List Utxo) :
    totalLovelace utxos = LargestFirst.total utxoLovelace utxos := by
  rw [totalLovelace, LargestFirst.total, List.sum_eq_foldl, List.foldl_map]

theorem totalLovelace_concat (utxos : List Utxo) (utxo : Utxo) :
    totalLovelace (utxos ++ [utxo]) = totalLovelace utxos + utxoLovelace utxo := by
  rw [totalLovelace, List.foldl_concat, ← totalLovelace]

theorem pickUntilCovered_eq_some {result : List Utxo} (hsum : totalLovelace picked = sum)
    (hshort : sum < minLovelace) (h : pickUntilCovered minLovelace rest picked sum = some result) :
    result <+: picked ++ rest ∧ minLovelace ≤ totalLovelace result ∧
      result ≠ [] ∧ totalLovelace result.dropLast < minLovelace := by
  induction rest generalizing picked sum with
  | nil => cases h
  | cons utxo rest ih =>
    rw [pickUntilCovered] at h
    have hnext : totalLovelace (picked ++ [utxo]) = sum + utxoLovelace utxo := by
      rw [totalLovelace_concat, hsum]
    split_ifs at h with hcovers
    · cases h
      refine ⟨⟨rest, by simp⟩, hnext ▸ hcovers, by simp, ?_⟩
      rwa [List.dropLast_concat, hsum]
    · simpa using ih hnext (not_le.mp hcovers) h

theorem pickUntilCovered_eq_none (hsum : totalLovelace picked = sum) (hshort : sum < minLovelace)
    (h : pickUntilCovered minLovelace rest picked sum = none) :
    totalLovelace (picked ++ rest) < minLovelace := by
  induction rest generalizing picked sum with
  | nil => rwa [List.append_nil, hsum]
  | cons utxo rest ih =>
    rw [pickUntilCovered] at h
    split_ifs at h with hcovers
    have hnext : totalLovelace (picked ++ [utxo]) = sum + utxoLovelace utxo := by
      rw [totalLovelace_concat, hsum]
    simpa using ih hnext (not_le.mp hcovers) h

theorem largestFirst_perm (utxos : List Utxo) : (largestFirst utxos).Perm utxos :=
  List.perm_insertionSort _ _

theorem totalLovelace_largestFirst (utxos : List Utxo) :
    totalLovelace (largestFirst utxos) = totalLovelace utxos := by
  rw [totalLovelace_eq, totalLovelace_eq, LargestFirst.total_perm (largestFirst_perm utxos)]

/-- **The fewest inputs.** Where the wallet covers the amount, the choice covers it and no longer
does without its last UTxO, and no choice that covers it has fewer; else it is the whole wallet. -/
theorem pickInputsToCover_fewest (hmin : 0 < minLovelace)
    (hnonneg : ∀ utxo ∈ utxos, 0 ≤ utxoLovelace utxo) :
    (minLovelace ≤ totalLovelace utxos →
      (pickInputsToCover utxos minLovelace).Subperm utxos ∧
        minLovelace ≤ totalLovelace (pickInputsToCover utxos minLovelace) ∧
        totalLovelace (pickInputsToCover utxos minLovelace).dropLast < minLovelace ∧
        ∀ choice : List Utxo, choice.Subperm utxos → minLovelace ≤ totalLovelace choice →
          (pickInputsToCover utxos minLovelace).length ≤ choice.length) ∧
      (totalLovelace utxos < minLovelace → (pickInputsToCover utxos minLovelace).Perm utxos) := by
  have hperm := largestFirst_perm utxos
  rw [pickInputsToCover]
  rcases hpick : pickUntilCovered minLovelace (largestFirst utxos) [] 0 with _ | picked
  · have hshort := pickUntilCovered_eq_none rfl hmin hpick
    rw [List.nil_append, totalLovelace_largestFirst] at hshort
    exact ⟨fun hcovers => absurd hcovers (not_le.mpr hshort), fun _ => hperm⟩
  · obtain ⟨hfront, hcovers, hne, hlast⟩ := pickUntilCovered_eq_some rfl hmin hpick
    rw [List.nil_append] at hfront
    have hsub : picked.Subperm utxos := hfront.sublist.subperm.trans hperm.subperm
    refine ⟨fun _ => ⟨hsub, hcovers, hlast, fun choice hchoice hreaches => ?_⟩, fun hshort => ?_⟩
    · -- all but the last of the picked ones are the first so many, and too few
      have hfirst : picked.dropLast = (largestFirst utxos).take (picked.length - 1) := by
        rw [List.dropLast_eq_take, List.prefix_iff_eq_take.mp hfront, List.take_take,
          List.length_take]
        congr 1
        omega
      rw [hfirst, totalLovelace_eq] at hlast
      rw [totalLovelace_eq] at hreaches
      have hlong := LargestFirst.length_le_of_reaches (
        (List.pairwise_insertionSort noSmaller utxos))
        (fun utxo hmem => hnonneg utxo (hperm.mem_iff.mp hmem)) hlast
        (hchoice.trans hperm.symm.subperm) hreaches
      exact Nat.le_of_pred_lt hlong
    · have hle : totalLovelace picked ≤ totalLovelace utxos := by
        have hmono := LargestFirst.total_take_mono
          (fun utxo hmem => hnonneg utxo (hperm.mem_iff.mp hmem)) hfront.length_le
        rwa [← List.prefix_iff_eq_take.mp hfront, List.take_length, ← totalLovelace_eq,
          ← totalLovelace_eq, totalLovelace_largestFirst] at hmono
      exact absurd (hcovers.trans hle) (not_le.mpr hshort)

def sampleUtxos : List Utxo := [⟨"a", some 2⟩, ⟨"b", none⟩, ⟨"c", some 4⟩, ⟨"d", some 3⟩]

theorem pickInputsToCover_fewest_two :
    (pickInputsToCover sampleUtxos 7).map (·.outRef) = ["c", "d"] ∧
      ∀ choice : List Utxo, choice.Subperm sampleUtxos → 7 ≤ totalLovelace choice →
        2 ≤ choice.length :=
  ⟨by decide, ((pickInputsToCover_fewest (by decide) (by decide)).1 (by decide)).2.2.2⟩

end

end DrepTalk
