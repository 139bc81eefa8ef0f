-- SUMMARY: What any sequence of registrations keeps: an ordered map of blocks that do not overlap.
import SmoothMotion.Solver.Problem

/-!
# The registry of parameter blocks

A new block is compared with its two neighbours in the map only. As the blocks in
the map are in order and apart, these two stand for all: the check passes exactly
if the new block overlaps none.
-/

/-! ## Blocks in order -/

namespace ParameterBlock

/-- A block begins behind another, and behind its end. -/
def Before (b b' : ParameterBlock) : Prop := b.values < b'.values ∧ b.values + b.size ≤ b'.values

def Apart (b b' : ParameterBlock) : Prop := b.Before b' ∨ b'.Before b

variable {b b' b'' : ParameterBlock}

theorem Before.trans (h : b.Before b') (h' : b'.Before b'') : b.Before b'' := by
  unfold Before at *
  omega

theorem Apart.ne (h : b.Apart b') : b.values ≠ b'.values := by
  unfold Apart Before at h
  omega

theorem mem_region {offset : Int} : offset ∈ b.region ↔ ∃ k < b.size, b.values + k = offset := by
  simp [region]

/-- Blocks that are apart share no offset. -/
theorem Apart.disjoint (h : b.Apart b') : b.region.Disjoint b'.region := by
  intro offset hb hb'
  obtain ⟨k, hk, rfl⟩ := mem_region.mp hb
  obtain ⟨k', hk', heq⟩ := mem_region.mp hb'
  unfold Apart Before at h
  omega

theorem apart_iff : b.Apart b' ↔
    b.values ≠ b'.values ∧ regionsAlias b.values b.size b'.values b'.size = false := by
  unfold Apart Before regionsAlias
  split <;> simp <;> omega

/-- The checks of the neighbours. -/
theorem forM_checkForNoAliasing_iff (existing : Option ParameterBlock) (new : ParameterBlock) :
    (existing.forM fun b => checkForNoAliasing b new) = .ok () ↔
      ∀ b ∈ existing, regionsAlias b.values b.size new.values new.size = false := by
  cases existing with
  | none => simp [Option.forM, pure, Except.pure]
  | some b =>
    simp only [Option.forM, checkForNoAliasing, Option.mem_some_iff, forall_eq']
    cases regionsAlias b.values b.size new.values new.size <;> simp

/-- What is in order with the last block is in order with all. -/
theorem before_of_getLast {blocks : List ParameterBlock} (h : blocks.Pairwise Before)
    (hlast : ∀ b ∈ blocks.getLast?, b.Before b') : ∀ b ∈ blocks, b.Before b' := by
  rcases List.eq_nil_or_concat blocks with rfl | ⟨front, last, rfl⟩
  · simp
  · have hb' : last.Before b' := hlast last (by simp)
    intro b hb
    rw [List.concat_eq_append] at h hb
    rw [List.pairwise_append] at h
    rcases List.mem_append.mp hb with hfront | hb
    · exact (h.2.2 b hfront last (by simp)).trans hb'
    · rw [List.mem_singleton.mp hb]
      exact hb'

/-- What is in order with the first block is in order with all. -/
theorem before_of_head {blocks : List ParameterBlock} (h : blocks.Pairwise Before)
    (hhead : ∀ b' ∈ blocks.head?, b.Before b') : ∀ b' ∈ blocks, b.Before b' := by
  cases blocks with
  | nil => simp
  | cons first rest =>
    have hfirst : b.Before first := hhead first (by simp)
    intro b' hb'
    rcases List.mem_cons.mp hb' with rfl | hb'
    · exact hfirst
    · exact hfirst.trans ((List.pairwise_cons.mp h).1 b' hb')

end ParameterBlock

namespace Problem

open ParameterBlock

variable {φ : Type} {p p' : Problem φ} {block : ParameterBlock}
  {address : Int} {size : Nat}

/-! ## One registration -/

/-- The blocks in front of the address, and those behind it. -/
def before (p : Problem φ) (address : Int) : List ParameterBlock :=
  p.parameterBlockMap.takeWhile fun b => b.values < address

def after (p : Problem φ) (address : Int) : List ParameterBlock :=
  p.parameterBlockMap.dropWhile fun b => b.values < address

theorem before_append_after (p : Problem φ) (address : Int) :
    p.before address ++ p.after address = p.parameterBlockMap :=
  List.takeWhile_append_dropWhile

theorem lt_of_mem_before (h : block ∈ p.before address) : block.values < address := by
  simpa using List.mem_takeWhile_imp h

theorem lt_of_mem_after (hsorted : p.parameterBlockMap.Pairwise Before)
    (hnew : ∀ b ∈ p.parameterBlockMap, b.values ≠ address) (h : block ∈ p.after address) :
    address < block.values := by
  have hsublist : (p.after address).Sublist p.parameterBlockMap := List.dropWhile_sublist _
  have hstart := List.head?_dropWhile_not (fun b => b.values < address) p.parameterBlockMap
  cases hafter : p.after address with
  | nil => simp [hafter] at h
  | cons first rest =>
    have hfirst : address < first.values := by
      have hne := hnew first (hsublist.subset (by simp [hafter]))
      unfold after at hafter
      simp only [hafter, List.head?_cons, decide_eq_false_iff_not] at hstart
      omega
    rw [hafter] at h hsublist
    rcases List.mem_cons.mp h with rfl | h
    · exact hfirst
    · exact hfirst.trans ((List.pairwise_cons.mp (hsorted.sublist hsublist)).1 block h).1

/-- The new block overlaps no block in the map. -/
def Fits (p : Problem φ) (block : ParameterBlock) : Prop :=
  ∀ b ∈ p.parameterBlockMap, b.Apart block

/-- The problem with one block more. -/
def insert (p : Problem φ) (block : ParameterBlock) : Problem φ :=
  { p with
    parameterBlockMap := p.before block.values ++ block :: p.after block.values
    parameterBlocks := p.parameterBlocks ++ [block] }

/-- The check of the two neighbours is one of all blocks. -/
theorem fits_iff (hsorted : p.parameterBlockMap.Pairwise Before)
    (hnew : ∀ b ∈ p.parameterBlockMap, b.values ≠ block.values) :
    p.Fits block ↔
      (∀ b ∈ (p.before block.values).getLast?,
        regionsAlias b.values b.size block.values block.size = false) ∧
      ∀ b ∈ (p.after block.values).head?,
        regionsAlias b.values b.size block.values block.size = false := by
  have hmap := p.before_append_after block.values
  have hbefore : (p.before block.values).Sublist p.parameterBlockMap := List.takeWhile_sublist _
  have hafter : (p.after block.values).Sublist p.parameterBlockMap := List.dropWhile_sublist _
  constructor
  · intro hfits
    constructor
    · intro b hb
      exact (apart_iff.mp (hfits b (hbefore.subset (List.mem_of_getLast? hb)))).2
    · intro b hb
      exact (apart_iff.mp (hfits b (hafter.subset (List.mem_of_head? hb)))).2
  · rintro ⟨hprevious, hlb⟩ b hb
    rw [← hmap, List.mem_append] at hb
    rcases hb with hb | hb
    · refine .inl (before_of_getLast (hsorted.sublist hbefore) ?_ b hb)
      intro last hlast
      have hlt := lt_of_mem_before (List.mem_of_getLast? hlast)
      have hapart := apart_iff.mpr ⟨hlt.ne, hprevious last hlast⟩
      exact hapart.resolve_right fun h => absurd h.1 (by omega)
    · refine .inr (before_of_head (hsorted.sublist hafter) ?_ b hb)
      intro first hfirst
      have hlt := lt_of_mem_after hsorted hnew (List.mem_of_head? hfirst)
      have hapart := apart_iff.mpr ⟨hlt.ne', hlb first hfirst⟩
      exact hapart.resolve_left fun h => absurd h.1 (by omega)

/-- There is one block for an address. -/
theorem eq_of_values_eq (hsorted : p.parameterBlockMap.Pairwise Before) {b b' : ParameterBlock}
    (hb : b ∈ p.parameterBlockMap) (hb' : b' ∈ p.parameterBlockMap) (h : b.values = b'.values) :
    b = b' := by
  have hnodup : (p.parameterBlockMap.map values).Nodup := by
    rw [List.Nodup, List.pairwise_map]
    exact hsorted.imp fun hbefore => hbefore.1.ne
  exact List.inj_on_of_nodup_map hnodup hb hb' h

/-- A registration returns for a block that is registered, and for one that overlaps
    none. -/
theorem addParameterBlock_eq_ok (hsorted : p.parameterBlockMap.Pairwise Before) :
    p.addParameterBlock address size = .ok (p', block) ↔
      block = ⟨address, size⟩ ∧
        (block ∈ p.parameterBlockMap ∧ p' = p ∨ p.Fits block ∧ p' = p.insert block) := by
  unfold addParameterBlock
  split
  · rename_i existing hfound
    have hmem := List.mem_of_find?_eq_some hfound
    have hvalues : existing.values = address := by simpa using List.find?_some hfound
    constructor
    · intro h
      split at h
      · rename_i hsize
        have hblock : existing = ⟨address, size⟩ := by rw [← hvalues, hsize]
        cases h
        exact ⟨hblock, .inl ⟨hmem, rfl⟩⟩
      · cases h
    · rintro ⟨rfl, ⟨hregistered, rfl⟩ | ⟨hfits, -⟩⟩
      · rw [eq_of_values_eq hsorted hmem hregistered hvalues, if_pos rfl]
      · exact absurd hvalues (hfits existing hmem).ne
  · rename_i hnone
    have hnew : ∀ b ∈ p.parameterBlockMap, b.values ≠ address := by
      simpa [List.find?_eq_none] using hnone
    have hfits : p.Fits ⟨address, size⟩ ↔ _ := fits_iff hsorted hnew
    rw [← forM_checkForNoAliasing_iff, ← forM_checkForNoAliasing_iff] at hfits
    constructor
    · intro h
      obtain ⟨_, hprevious, h⟩ := Except.bind_eq_ok h
      obtain ⟨_, hlb, h⟩ := Except.bind_eq_ok h
      cases h
      exact ⟨rfl, .inr ⟨hfits.mpr ⟨hprevious, hlb⟩, rfl⟩⟩
    · rintro ⟨rfl, ⟨hregistered, -⟩ | ⟨hapart, rfl⟩⟩
      · exact absurd rfl (hnew _ hregistered)
      · obtain ⟨hprevious, hlb⟩ := hfits.mp hapart
        unfold before at hprevious
        unfold after at hlb
        simp only [hprevious, hlb, Except.ok_bind]
        rfl

/-! ## Any sequence of registrations -/

/-- What is true of the registry whatever is registered. -/
structure Ordered (p : Problem φ) : Prop where
  sorted : p.parameterBlockMap.Pairwise Before
  perm : p.parameterBlockMap.Perm p.parameterBlocks
  registered : ∀ rb ∈ p.residualBlocks, rb.parameterBlock ∈ p.parameterBlocks

theorem ordered_empty : (empty : Problem φ).Ordered := ⟨.nil, .nil, by simp [empty]⟩

theorem Ordered.insert (h : p.Ordered) (hfits : p.Fits block) : (p.insert block).Ordered := by
  have hmap := p.before_append_after block.values
  have hnew : ∀ b ∈ p.parameterBlockMap, b.values ≠ block.values := fun b hb => (hfits b hb).ne
  have hbefore : ∀ b ∈ p.before block.values, b.Before block := by
    intro b hb
    have hlt := lt_of_mem_before hb
    exact (hfits b (by simp [← hmap, hb])).resolve_right fun h => absurd h.1 (by omega)
  have hafter : ∀ b ∈ p.after block.values, block.Before b := by
    intro b hb
    have hlt := lt_of_mem_after h.sorted hnew hb
    exact (hfits b (by simp [← hmap, hb])).resolve_left fun h => absurd h.1 (by omega)
  constructor
  · have hsorted := h.sorted
    rw [← hmap, List.pairwise_append] at hsorted
    obtain ⟨hfront, hback, hacross⟩ := hsorted
    refine List.pairwise_append.mpr ⟨hfront, List.pairwise_cons.mpr ⟨hafter, hback⟩, ?_⟩
    intro b hb b' hb'
    rcases List.mem_cons.mp hb' with rfl | hb'
    · exact hbefore b hb
    · exact hacross b hb b' hb'
  · have hperm := h.perm
    rw [← hmap] at hperm
    have hblock : (p.before block.values ++ block :: p.after block.values).Perm
        (block :: p.parameterBlocks) := List.perm_middle.trans (hperm.cons block)
    exact hblock.trans (List.perm_append_singleton _ _).symm
  · intro rb hrb
    exact List.mem_append_left _ (h.registered rb hrb)

theorem Ordered.addParameterBlock (h : p.Ordered)
    (hadd : p.addParameterBlock address size = .ok (p', block)) :
    p'.Ordered ∧ p'.residualBlocks = p.residualBlocks ∧ block ∈ p'.parameterBlocks ∧
      p.parameterBlocks <+: p'.parameterBlocks := by
  obtain ⟨-, ⟨hregistered, rfl⟩ | ⟨hfits, rfl⟩⟩ := (addParameterBlock_eq_ok h.sorted).mp hadd
  · exact ⟨h, rfl, h.perm.subset hregistered, List.prefix_rfl⟩
  · exact ⟨h.insert hfits, rfl, by simp [Problem.insert], List.prefix_append _ _⟩

theorem Ordered.addResidualBlock (h : p.Ordered) {costFunction : φ}
    (hadd : p.addResidualBlock costFunction size address = .ok p') : p'.Ordered := by
  obtain ⟨⟨p₁, block⟩, hblock, hadd⟩ := Except.bind_eq_ok hadd
  cases hadd
  obtain ⟨hordered, hresiduals, hmem, hprefix⟩ := h.addParameterBlock hblock
  refine ⟨hordered.sorted, hordered.perm, ?_⟩
  intro rb hrb
  rcases List.mem_append.mp hrb with hrb | hrb
  · exact hordered.registered rb hrb
  · rw [List.mem_singleton.mp hrb]
    exact hmem

/-- Only the block of the cost function is new. -/
theorem Ordered.mem_addResidualBlock (h : p.Ordered) {costFunction : φ}
    (hadd : p.addResidualBlock costFunction size address = .ok p') {b : ParameterBlock}
    (hb : b ∈ p'.parameterBlocks) : b ∈ p.parameterBlocks ∨ b = ⟨address, size⟩ := by
  obtain ⟨⟨p₁, block⟩, hblock, hadd⟩ := Except.bind_eq_ok hadd
  cases hadd
  obtain ⟨rfl, ⟨-, rfl⟩ | ⟨-, rfl⟩⟩ := (addParameterBlock_eq_ok h.sorted).mp hblock
  · exact .inl hb
  · simpa [Problem.insert] using hb

/-- What a sequence of registrations makes of the empty problem. -/
inductive Built : Problem φ → Prop
  | empty : Built empty
  | addParameterBlock {p p' : Problem φ} {address : Int} {size : Nat} {block : ParameterBlock} :
      Built p → p.addParameterBlock address size = .ok (p', block) → Built p'
  | addResidualBlock {p p' : Problem φ} {costFunction : φ} {size : Nat} {address : Int} :
      Built p → p.addResidualBlock costFunction size address = .ok p' → Built p'

theorem Built.ordered (h : p.Built) : p.Ordered := by
  induction h with
  | empty => exact ordered_empty
  | addParameterBlock _ hadd ih => exact (ih.addParameterBlock hadd).1
  | addResidualBlock _ hadd ih => exact ih.addResidualBlock hadd

/-- After any sequence of registrations no two blocks share an offset and every
    residual block is on a registered one. The next registration returns exactly if
    its block is there already, or overlaps none and has an address of its own; and
    it keeps the order of the earlier blocks. -/
theorem built_registry (h : p.Built) :
    (p.parameterBlocks.Pairwise fun b b' => b.region.Disjoint b'.region) ∧
      (∀ rb ∈ p.residualBlocks, rb.parameterBlock ∈ p.parameterBlocks) ∧
      ∀ (address : Int) (size : Nat),
        ((∃ p' block, p.addParameterBlock address size = .ok (p', block)) ↔
          ⟨address, size⟩ ∈ p.parameterBlocks ∨ ∀ b ∈ p.parameterBlocks,
            b.values ≠ address ∧ regionsAlias b.values b.size address size = false) ∧
        ∀ p' block, p.addParameterBlock address size = .ok (p', block) →
          p.parameterBlocks <+: p'.parameterBlocks := by
  have hordered := h.ordered
  refine ⟨?_, hordered.registered, fun address size => ⟨?_, ?_⟩⟩
  · have hapart : p.parameterBlockMap.Pairwise Apart := hordered.sorted.imp .inl
    exact (hordered.perm.pairwise hapart fun hb => Or.symm hb).imp Apart.disjoint
  · have hapart : ∀ b : ParameterBlock, b.Apart ⟨address, size⟩ ↔
        b.values ≠ address ∧ regionsAlias b.values b.size address size = false :=
      fun b => apart_iff
    simp only [addParameterBlock_eq_ok hordered.sorted, ← hordered.perm.mem_iff, ← hapart]
    constructor
    · rintro ⟨p', block, rfl, ⟨hregistered, -⟩ | ⟨hfits, -⟩⟩
      · exact .inl hregistered
      · exact .inr hfits
    · rintro (hregistered | hfits)
      · exact ⟨p, _, rfl, .inl ⟨hregistered, rfl⟩⟩
      · exact ⟨_, _, rfl, .inr ⟨hfits, rfl⟩⟩
  · intro p' block hadd
    exact (hordered.addParameterBlock hadd).2.2.2

/-- Two blocks with a gap between them, the second registered first. -/
theorem built_registry_twoBlocks :
    ∃ p : Problem Unit, p.parameterBlocks = [⟨6, 3⟩, ⟨0, 3⟩] ∧
      (p.parameterBlocks.Pairwise fun b b' => b.region.Disjoint b'.region) ∧
      ¬ (∃ p' block, p.addParameterBlock 4 3 = .ok (p', block)) ∧
      ∃ p' block, p.addParameterBlock 3 3 = .ok (p', block) := by
  have hfirst : (empty : Problem Unit).addResidualBlock () 3 6 =
      .ok ⟨[⟨6, 3⟩], [⟨6, 3⟩], [⟨(), ⟨6, 3⟩⟩]⟩ := rfl
  have hsecond : (⟨[⟨6, 3⟩], [⟨6, 3⟩], [⟨(), ⟨6, 3⟩⟩]⟩ : Problem Unit).addParameterBlock 0 3 =
      .ok (⟨[⟨0, 3⟩, ⟨6, 3⟩], [⟨6, 3⟩, ⟨0, 3⟩], [⟨(), ⟨6, 3⟩⟩]⟩, ⟨0, 3⟩) := rfl
  obtain ⟨hapart, -, hnext⟩ := built_registry ((Built.empty.addResidualBlock hfirst).addParameterBlock hsecond)
  refine ⟨_, rfl, hapart, ?_, ?_⟩
  · rw [(hnext 4 3).1]
    decide
  · rw [(hnext 3 3).1]
    decide

end Problem
