-- SUMMARY: Rose trees and their preorder listing, with the chain of ancestors of every listed node.
import Mathlib.Data.List.Nodup
import Mathlib.Data.List.Basic

/-!
# Rose trees in preorder

A node is listed before the nodes below it, so everything above a node stands
in front of it in the listing. The listing is kept together with the chain of
ancestors it was reached through, outermost first: parents, edges and depths
are all read off that chain.
-/

inductive RoseTree (α : Type) where
  | node (value : α) (children : List (RoseTree α))

namespace RoseTree

variable {α : Type}

mutual
/-- The nodes in preorder, each with the chain of its ancestors; `up` is the
    chain the tree itself hangs from. -/
def listing (up : List α) : RoseTree α → List (α × List α)
  | .node value children => (value, up) :: listingAll (up ++ [value]) children

/-- The listing of the trees of a forest that hang from the same chain. -/
def listingAll (up : List α) : List (RoseTree α) → List (α × List α)
  | [] => []
  | child :: children => listing up child ++ listingAll up children
end

def preorder (t : RoseTree α) : List α := (t.listing []).map Prod.fst

def root : RoseTree α → α
  | .node value _ => value

/-- The edges in the order of their lower ends: the pairs of a node's last
    ancestor and the node. -/
def edges (t : RoseTree α) : List (α × α) :=
  (t.listing []).filterMap fun entry => entry.2.getLast?.map (·, entry.1)

/-- The ancestors of a node, outermost first. -/
def ancestors [DecidableEq α] (t : RoseTree α) (a : α) : List α :=
  ((t.listing []).lookup a).getD []

def parent [DecidableEq α] (t : RoseTree α) (a : α) : Option α :=
  (t.ancestors a).getLast?

/-! ## Where the entries of a listing stand -/

/-- What stands above an entry was listed before it, or is above the tree. -/
private abbrev Above (up : List α) (entries : List (α × List α)) : Prop :=
  ∀ l₁ v chain l₂, entries = l₁ ++ (v, chain) :: l₂ →
    ∀ a ∈ chain, a ∈ up ∨ a ∈ l₁.map Prod.fst

private theorem Above.append {up : List α} {es es' : List (α × List α)}
    (h : Above up es) (h' : Above up es') : Above up (es ++ es') := by
  intro l₁ v chain l₂ heq a ha
  rcases List.append_eq_append_iff.mp heq with ⟨m, hl, hm⟩ | ⟨m, hl, hm⟩
  · subst hl
    rcases h' m v chain l₂ hm a ha with hup | hmem
    · exact .inl hup
    · exact .inr (by simp [hmem])
  · cases m with
    | nil =>
      rcases h' [] v chain l₂ (by simpa using hm.symm) a ha with hup | hmem
      · exact .inl hup
      · simp at hmem
    | cons e m =>
      obtain ⟨rfl, -⟩ : (v, chain) = e ∧ l₂ = m ++ es' := by simpa using hm
      exact h l₁ v chain m hl a ha

mutual
private theorem listing_above (up : List α) : (t : RoseTree α) → Above up (t.listing up)
  | .node value children => by
      intro l₁ v chain l₂ heq a ha
      rw [listing] at heq
      cases l₁ with
      | nil =>
        obtain ⟨⟨rfl, rfl⟩, -⟩ := by simpa using heq
        exact .inl ha
      | cons e l₁ =>
        obtain ⟨rfl, htail⟩ := by simpa using heq
        rcases listingAll_above (up ++ [value]) children l₁ v chain l₂ htail a ha with h | h
        · rcases List.mem_append.mp h with h | h
          · exact .inl h
          · exact .inr (by simp [List.mem_singleton.mp h])
        · exact .inr (by simp [h])

private theorem listingAll_above (up : List α) :
    (ts : List (RoseTree α)) → Above up (listingAll up ts)
  | [] => by
      intro l₁ v chain l₂ heq
      simp [listingAll] at heq
  | child :: children => by
      rw [listingAll]
      exact (listing_above up child).append (listingAll_above up children)
end

mutual
private theorem listing_hangs (up : List α) :
    (t : RoseTree α) → ∀ entry ∈ t.listing up, up <+: entry.2
  | .node value children => by
      intro entry h
      rw [listing] at h
      rcases List.mem_cons.mp h with rfl | h
      · exact List.prefix_rfl
      · exact (List.prefix_append up [value]).trans
          (listingAll_hangs (up ++ [value]) children entry h)

private theorem listingAll_hangs (up : List α) :
    (ts : List (RoseTree α)) → ∀ entry ∈ listingAll up ts, up <+: entry.2
  | [] => by simp [listingAll]
  | child :: children => by
      intro entry h
      rw [listingAll] at h
      rcases List.mem_append.mp h with h | h
      · exact listing_hangs up child entry h
      · exact listingAll_hangs up children entry h
end

/-- The last node above an entry, if it is listed, hangs from the rest of the chain. -/
private abbrev Linked (up : List α) (entries : List (α × List α)) : Prop :=
  ∀ v chain, (v, chain) ∈ entries → chain = up ∨ ∃ p rest, chain = rest ++ [p] ∧ (p, rest) ∈ entries

mutual
private theorem listing_linked (up : List α) : (t : RoseTree α) → Linked up (t.listing up)
  | .node value children => by
      intro v chain h
      rw [listing] at h ⊢
      rcases List.mem_cons.mp h with heq | h
      · cases heq
        exact .inl rfl
      · rcases listingAll_linked (up ++ [value]) children v chain h with rfl | ⟨p, rest, rfl, hmem⟩
        · exact .inr ⟨value, up, rfl, by simp⟩
        · exact .inr ⟨p, rest, rfl, by simp [hmem]⟩

private theorem listingAll_linked (up : List α) :
    (ts : List (RoseTree α)) → Linked up (listingAll up ts)
  | [] => by simp [listingAll, Linked]
  | child :: children => by
      intro v chain h
      rw [listingAll] at h ⊢
      rcases List.mem_append.mp h with h | h
      · rcases listing_linked up child v chain h with rfl | ⟨p, rest, rfl, hmem⟩
        · exact .inl rfl
        · exact .inr ⟨p, rest, rfl, List.mem_append_left _ hmem⟩
      · rcases listingAll_linked up children v chain h with rfl | ⟨p, rest, rfl, hmem⟩
        · exact .inl rfl
        · exact .inr ⟨p, rest, rfl, List.mem_append_right _ hmem⟩
end

/-- Only the root has no ancestors: a listing is its root and entries with a
    parent. -/
theorem listing_eq_cons (t : RoseTree α) :
    ∃ rest, t.listing [] = (t.root, []) :: rest ∧ ∀ entry ∈ rest, entry.2 ≠ [] := by
  cases t with
  | node value children =>
    refine ⟨listingAll [value] children, by simp [listing, root], ?_⟩
    intro entry h hnil
    have := listingAll_hangs [value] children entry h
    simp [hnil] at this

theorem preorder_eq_cons (t : RoseTree α) : t.preorder = t.root :: t.preorder.tail := by
  obtain ⟨rest, hrest, -⟩ := t.listing_eq_cons
  simp [preorder, hrest]

theorem preorder_length_pos (t : RoseTree α) : 0 < t.preorder.length := by
  rw [preorder_eq_cons]
  simp

/-! ## Parents in a tree of distinct nodes -/

section Distinct

variable [DecidableEq α] {t : RoseTree α}

theorem ancestors_of_mem_listing (hnd : t.preorder.Nodup) {a : α} {chain : List α}
    (h : (a, chain) ∈ t.listing []) : t.ancestors a = chain := by
  have hlookup : (t.listing []).lookup a = some chain := by
    obtain ⟨l₁, l₂, heq⟩ := List.append_of_mem h
    unfold preorder at hnd
    rw [heq] at hnd
    refine List.lookup_eq_some_iff.mpr ⟨l₁, l₂, by rw [heq], ?_⟩
    intro p hp
    simp only [List.map_append, List.map_cons, List.nodup_append] at hnd
    have := hnd.2.2 p.1 (List.mem_map_of_mem hp) a (by simp)
    simpa using fun h => this h.symm
  simp [ancestors, hlookup]

/-- Whatever stands above a node is listed before it. -/
theorem ancestors_before (hnd : t.preorder.Nodup) {l₁ l₂ : List α} {a : α}
    (h : t.preorder = l₁ ++ a :: l₂) : ∀ b ∈ t.ancestors a, b ∈ l₁ := by
  obtain ⟨es₁, es₂, heq, rfl, htail⟩ := List.map_eq_append_iff.mp h
  obtain ⟨⟨v, chain⟩, es₂, rfl, rfl, rfl⟩ := List.map_eq_cons_iff.mp htail
  have hmem : (v, chain) ∈ t.listing [] := by simp [heq]
  intro b hb
  rw [ancestors_of_mem_listing hnd hmem] at hb
  rcases listing_above [] t es₁ v chain es₂ heq b hb with h | h
  · simp at h
  · exact h

theorem ancestors_root (hnd : t.preorder.Nodup) : t.ancestors t.root = [] := by
  obtain ⟨rest, hrest, -⟩ := t.listing_eq_cons
  exact ancestors_of_mem_listing hnd (by simp [hrest])

theorem exists_parent (hnd : t.preorder.Nodup) {a : α} (h : a ∈ t.preorder.tail) :
    ∃ p, t.parent a = some p := by
  obtain ⟨rest, hrest, hne⟩ := t.listing_eq_cons
  have htail : t.preorder.tail = rest.map Prod.fst := by simp [preorder, hrest]
  rw [htail] at h
  obtain ⟨entry, hmem, rfl⟩ := List.mem_map.mp h
  have hentry : (entry.1, entry.2) ∈ t.listing [] := by simp [hrest, hmem]
  unfold parent
  rw [ancestors_of_mem_listing hnd hentry]
  exact ⟨_, List.getLast?_eq_some_getLast (hne entry hmem)⟩

/-- A node's parent is listed in front of the node. -/
theorem parent_before (hnd : t.preorder.Nodup) {l₁ l₂ : List α} {a p : α}
    (h : t.preorder = l₁ ++ a :: l₂) (hp : t.parent a = some p) : p ∈ l₁ :=
  ancestors_before hnd h p (List.mem_of_getLast? hp)

/-- Above a node stand its parent and what stands above the parent. -/
theorem ancestors_of_parent (hnd : t.preorder.Nodup) {a p : α} (h : a ∈ t.preorder)
    (hp : t.parent a = some p) : t.ancestors a = t.ancestors p ++ [p] := by
  obtain ⟨⟨v, chain⟩, hmem, rfl⟩ := List.mem_map.mp h
  have hchain : t.ancestors v = chain := ancestors_of_mem_listing hnd hmem
  unfold parent at hp
  rw [hchain] at hp ⊢
  rcases listing_linked [] t v chain hmem with rfl | ⟨q, rest, rfl, hmem'⟩
  · cases hp
  · obtain rfl : q = p := by simpa using hp
    rw [ancestors_of_mem_listing hnd hmem']

/-- In the listing, the parent of a node other than the root has a smaller
    index than the node. -/
theorem exists_parent_idxOf_lt (hnd : t.preorder.Nodup) {b : Nat} (hb : b < t.preorder.length)
    (hpos : 0 < b) :
    ∃ p ∈ t.preorder, t.parent t.preorder[b] = some p ∧ t.preorder.idxOf p < b := by
  have hsplit : t.preorder = t.preorder.take b ++ t.preorder[b] :: t.preorder.drop (b + 1) := by
    simp
  have htail : t.preorder[b] ∈ t.preorder.tail := by
    obtain ⟨b, rfl⟩ := Nat.exists_eq_add_of_lt hpos
    have hlen : b < t.preorder.tail.length := by
      rw [List.length_tail]
      omega
    have hget : t.preorder[0 + b + 1] = t.preorder.tail[b] := by simp
    rw [hget]
    exact List.getElem_mem hlen
  obtain ⟨p, hp⟩ := exists_parent hnd htail
  have hmem : p ∈ t.preorder.take b := parent_before hnd hsplit hp
  refine ⟨p, List.mem_of_mem_take hmem, hp, ?_⟩
  have hidx : t.preorder.idxOf p = (t.preorder.take b).idxOf p := by
    conv_lhs => rw [hsplit]
    exact List.idxOf_append_of_mem hmem
  rw [hidx]
  exact Nat.lt_of_lt_of_le (List.idxOf_lt_length_of_mem hmem) (List.length_take_le b _)

/-- Each node but the root is the lower end of one edge, from its parent. -/
theorem edges_eq (hnd : t.preorder.Nodup) :
    t.edges = t.preorder.tail.filterMap fun a => (t.parent a).map (·, a) := by
  obtain ⟨rest, hrest, -⟩ := t.listing_eq_cons
  have htail : t.preorder.tail = rest.map Prod.fst := by simp [preorder, hrest]
  rw [edges, htail, hrest, List.filterMap_map]
  simp only [List.filterMap_cons, List.getLast?_nil, Option.map_none]
  refine List.filterMap_congr fun entry hmem => ?_
  have : t.ancestors entry.1 = entry.2 := ancestors_of_mem_listing hnd (by simp [hrest, hmem])
  simp [parent, this]

end Distinct

end RoseTree
