import Mathlib.Data.Finset.Card
import Mathlib.Tactic

/-!
# Approvals of a set of signers

An M-of-N collection of approvals: the approved and the pending signers split
the registered ones without repetition, and an approval moves one signer from
pending to approved.  A collection with `threshold` approvals holds a quorum
of distinct registered signers.
-/

namespace SoulonWallet

structure SignerModel {Signer : Type*} [DecidableEq Signer]
    (allSigners approved pending : List Signer)
    (threshold totalSigners collected : ℤ) : Prop where
  threshold_pos : 0 < threshold
  threshold_le : threshold ≤ totalSigners
  total_eq : allSigners.dedup.length = totalSigners
  approved_nodup : approved.Nodup
  pending_nodup : pending.Nodup
  disjoint : ∀ signer ∈ approved, signer ∉ pending
  collected_eq : approved.length = collected
  complete : approved.length + pending.length = allSigners.dedup.length
  approved_registered : ∀ signer ∈ approved, signer ∈ allSigners
  pending_registered : ∀ signer ∈ pending, signer ∈ allSigners

namespace SignerModel

variable {Signer : Type*} [DecidableEq Signer]
variable {allSigners approved pending : List Signer}
variable {threshold totalSigners collected : ℤ}

/-- The approved and the pending signers are exactly the registered ones. -/
theorem mem_allSigners_iff
    (hmodel : SignerModel allSigners approved pending threshold totalSigners
      collected) (signer : Signer) :
    signer ∈ allSigners ↔ signer ∈ approved ∨ signer ∈ pending := by
  constructor
  · intro hmem
    have hsub : approved ++ pending ⊆ allSigners.dedup := by
      intro other hother
      rw [List.mem_dedup]
      rcases List.mem_append.mp hother with happroved | hpending
      · exact hmodel.approved_registered other happroved
      · exact hmodel.pending_registered other hpending
    have hnodup : (approved ++ pending).Nodup := by
      rw [List.nodup_append]
      refine ⟨hmodel.approved_nodup, hmodel.pending_nodup, ?_⟩
      intro left hleft right hright heq
      exact hmodel.disjoint left hleft (heq ▸ hright)
    have hperm : (approved ++ pending).Perm allSigners.dedup := by
      apply (List.subperm_of_subset hnodup hsub).perm_of_length_le
      rw [List.length_append, hmodel.complete]
    exact List.mem_append.mp
      (hperm.mem_iff.mpr (List.mem_dedup.mpr hmem))
  · intro hmem
    rcases hmem with happroved | hpending
    · exact hmodel.approved_registered signer happroved
    · exact hmodel.pending_registered signer hpending

theorem approve
    (hmodel : SignerModel allSigners approved pending threshold totalSigners
      collected) {signer : Signer} (hsigner : signer ∈ pending) :
    SignerModel allSigners (approved ++ [signer])
      (pending.filter fun item => item != signer) threshold totalSigners
      (approved ++ [signer]).length := by
  have herase := (hmodel.pending_nodup.erase_eq_filter signer).symm
  have hlength := List.length_erase_of_mem hsigner
  have hpositive := List.length_pos_of_mem hsigner
  rw [herase]
  constructor
  · exact hmodel.threshold_pos
  · exact hmodel.threshold_le
  · exact hmodel.total_eq
  · rw [List.nodup_append]
    refine ⟨hmodel.approved_nodup, List.nodup_singleton signer, ?_⟩
    intro left hleft right hright heq
    have hsame : left = signer := heq.trans (List.mem_singleton.mp hright)
    exact hmodel.disjoint signer (hsame ▸ hleft) hsigner
  · exact hmodel.pending_nodup.erase signer
  · intro other hother hpending
    rcases List.mem_append.mp hother with happroved | hlast
    · exact hmodel.disjoint other happroved (List.mem_of_mem_erase hpending)
    · rw [List.mem_singleton.mp hlast,
        hmodel.pending_nodup.mem_erase_iff] at hpending
      exact hpending.1 rfl
  · rfl
  · have hcomplete := hmodel.complete
    simp only [List.length_append, List.length_singleton]
    omega
  · intro other hother
    rcases List.mem_append.mp hother with happroved | hlast
    · exact hmodel.approved_registered other happroved
    · rw [List.mem_singleton.mp hlast]
      exact hmodel.pending_registered signer hsigner
  · intro other hother
    exact hmodel.pending_registered other (List.mem_of_mem_erase hother)

theorem approveAll
    {signers : List Signer}
    (hmodel : SignerModel allSigners approved pending threshold totalSigners
      collected) (hnodup : signers.Nodup)
    (hsigners : ∀ signer ∈ signers, signer ∈ pending) :
    SignerModel allSigners (approved ++ signers)
      (pending.filter fun item => item ∉ signers) threshold totalSigners
      (approved ++ signers).length := by
  induction signers generalizing approved pending collected with
  | nil =>
      have hcollected := hmodel.collected_eq
      subst hcollected
      simpa using hmodel
  | cons signer rest ih =>
      obtain ⟨hsigner, hrest⟩ := List.forall_mem_cons.mp hsigners
      obtain ⟨hnew, hrestNodup⟩ := List.nodup_cons.mp hnodup
      have hnext := ih (hmodel.approve hsigner) hrestNodup (by
        intro other hother
        have hne : other ≠ signer := fun heq => hnew (heq ▸ hother)
        simp [hrest other hother, hne])
      have hfilter : ∀ item ∈ pending,
          (decide (item ∉ rest) && item != signer) =
            decide (item ∉ signer :: rest) := by
        intro item _
        by_cases hsame : item = signer
        · simp [hsame]
        · simp [hsame]
      rwa [List.filter_filter, List.filter_congr hfilter, List.append_assoc,
        List.singleton_append] at hnext

theorem le_card_of_quorum
    (hmodel : SignerModel allSigners approved pending threshold totalSigners
      collected) (hquorum : threshold ≤ approved.length) :
    threshold ≤
      (approved.toFinset.filter fun signer => signer ∈ allSigners).card := by
  have hall : approved.toFinset.filter (fun signer => signer ∈ allSigners) =
      approved.toFinset := by
    apply Finset.filter_true_of_mem
    intro signer hsigner
    exact hmodel.approved_registered signer (List.mem_toFinset.mp hsigner)
  rw [hall, List.toFinset_card_of_nodup hmodel.approved_nodup]
  exact hquorum

/-! ## Signers read from lines -/

variable {Line : Type*}

/-- The signers that the lines carry and that were not seen before, in the
order of the first line of each. -/
def newSigners (read : Line → Option Signer) (seen : List Signer) :
    List Line → List Signer
  | [] => []
  | line :: rest =>
      match read line with
      | none => newSigners read seen rest
      | some signer =>
          if signer ∈ seen then newSigners read seen rest
          else signer :: newSigners read (seen ++ [signer]) rest

variable {read : Line → Option Signer}

theorem newSigners_cons_old
    {seen : List Signer} {line : Line} (rest : List Line)
    (hold : ∀ signer, read line = some signer → signer ∈ seen) :
    newSigners read seen (line :: rest) = newSigners read seen rest := by
  cases hread : read line with
  | none => simp [newSigners, hread]
  | some signer => simp [newSigners, hread, hold signer hread]

theorem newSigners_cons_new
    {seen : List Signer} {line : Line} {signer : Signer} (rest : List Line)
    (hread : read line = some signer) (hnew : signer ∉ seen) :
    newSigners read seen (line :: rest) =
      signer :: newSigners read (seen ++ [signer]) rest := by
  simp [newSigners, hread, hnew]

theorem newSigners_cons
    (read : Line → Option Signer) (seen : List Signer) (line : Line)
    (rest : List Line) :
    newSigners read seen (line :: rest) =
      newSigners read seen [line] ++
        newSigners read (seen ++ newSigners read seen [line]) rest := by
  by_cases hold : ∀ signer, read line = some signer → signer ∈ seen
  · rw [newSigners_cons_old rest hold, newSigners_cons_old [] hold]
    simp [newSigners]
  · push Not at hold
    obtain ⟨signer, hread, hnew⟩ := hold
    rw [newSigners_cons_new rest hread hnew, newSigners_cons_new [] hread hnew]
    simp [newSigners]

theorem mem_newSigners_iff
    {seen : List Signer} {lines : List Line} {signer : Signer} :
    signer ∈ newSigners read seen lines ↔
      signer ∉ seen ∧ ∃ line ∈ lines, read line = some signer := by
  induction lines generalizing seen with
  | nil => simp [newSigners]
  | cons line rest ih =>
      by_cases hold : ∀ other, read line = some other → other ∈ seen
      · rw [newSigners_cons_old rest hold, ih, List.exists_mem_cons_iff]
        constructor
        · rintro ⟨hseen, hrest⟩
          exact ⟨hseen, Or.inr hrest⟩
        · rintro ⟨hseen, hread | hrest⟩
          · exact absurd (hold signer hread) hseen
          · exact ⟨hseen, hrest⟩
      · push Not at hold
        obtain ⟨other, hread, hnew⟩ := hold
        rw [newSigners_cons_new rest hread hnew, List.mem_cons, ih,
          List.exists_mem_cons_iff, hread, Option.some.injEq,
          List.mem_append, List.mem_singleton]
        constructor
        · rintro (rfl | ⟨hseen, hrest⟩)
          · exact ⟨hnew, Or.inl rfl⟩
          · exact ⟨fun hmem => hseen (Or.inl hmem), Or.inr hrest⟩
        · rintro ⟨hseen, heq | hrest⟩
          · exact Or.inl heq.symm
          · by_cases hsame : signer = other
            · exact Or.inl hsame
            · refine Or.inr ⟨?_, hrest⟩
              rintro (hmem | hmem)
              · exact hseen hmem
              · exact hsame hmem

theorem nodup_newSigners
    (read : Line → Option Signer) (seen : List Signer) (lines : List Line) :
    (newSigners read seen lines).Nodup := by
  induction lines generalizing seen with
  | nil => exact List.nodup_nil
  | cons line rest ih =>
      by_cases hold : ∀ other, read line = some other → other ∈ seen
      · rw [newSigners_cons_old rest hold]
        exact ih seen
      · push Not at hold
        obtain ⟨other, hread, hnew⟩ := hold
        rw [newSigners_cons_new rest hread hnew, List.nodup_cons]
        refine ⟨?_, ih _⟩
        intro hmem
        exact (mem_newSigners_iff.mp hmem).1 (by simp)

end SignerModel

end SoulonWallet
