import Mathlib.Data.List.Induction
import QueryRelay.Eval.Meaning
import QueryRelay.Proofs.Eval.Sequences
import QueryRelay.Proofs.Eval.StableSort
import QueryRelay.Proofs.Expr.Rewriting
import QueryRelay.Proofs.Value.Comparing

/-!
# Grouping is a partition

Elements are put one by one into the first group with a loosely equal key, or start a group of their
own. Main statement: each item of the source contributes to one group, whose key is that of its
first item and loosely equal to those of all others; no two groups have loosely equal keys; groups
stand in the order of their first items, and the contributions to a group in the order of the
source. This needs no transitivity of loose equality.
-/

namespace QueryRelay

/-- Changing sides keeps loose equality. -/
theorem Value.looselyEquals_comm (v w : Value) : v.looselyEquals w = w.looselyEquals v := by
  rw [looselyEquals, looselyEquals, compareTotal_swap v w]
  cases v.compareTotal w <;> rfl

namespace Sequence

/-- What one item of a sequence contributes to a grouping. -/
structure Contribution where
  /-- The key of the item. -/
  key : Value
  /-- The item, or its image. -/
  element : Value
  /-- The position of the item. -/
  position : Nat

/-- The key and the element of a contribution are those of its item. -/
structure Contributes (key : Selector) (image : Option Selector) (item : Value × Nat)
    (x : Contribution) : Prop where
  /-- The key of the item. -/
  key : key item.1 = .ok x.key
  /-- Its image, or the item itself where there are no images. -/
  element : image.getD .ok item.1 = .ok x.element
  /-- Its position. -/
  position : x.position = item.2

/-- A group with the contributions it is made of. -/
structure Block where
  /-- The contribution that started it. -/
  first : Contribution
  /-- The contributions that came to it later. -/
  later : List Contribution

namespace Block

/-- The contributions to a group. -/
def all (b : Block) : List Contribution := b.first :: b.later

/-- The key of a group is that of its first contribution. -/
def key (b : Block) : Value := b.first.key

/-- The elements of a group. -/
def elements (b : Block) : List Value := b.all.map Contribution.element

/-- A group after one more contribution. -/
def add (b : Block) (x : Contribution) : Block := { b with later := b.later ++ [x] }

/-- One more contribution comes last. -/
theorem all_add (b : Block) (x : Contribution) : (b.add x).all = b.all ++ [x] := rfl

end Block

/-- Groups into which contributions are divided. -/
structure Divides (contributions : List Contribution) (blocks : List Block) : Prop where
  /-- Each contribution is in one group, once, and nothing else is in any. -/
  perm : (blocks.flatMap Block.all).Perm contributions
  /-- The contributions to a group stand in the order of the source. -/
  inOrder : ∀ b ∈ blocks, b.all.Pairwise fun x y => x.position < y.position
  /-- The groups stand in the order of their first contributions. -/
  byFirst : (blocks.map Block.first).Pairwise fun x y => x.position < y.position
  /-- The keys in a group are loosely equal to its key. -/
  sameKey : ∀ b ∈ blocks, ∀ x ∈ b.all, b.key.looselyEquals x.key = true
  /-- The keys of two groups are not loosely equal, whichever is compared with the other. -/
  apart : (blocks.map Block.first).Pairwise fun x y =>
    x.key.looselyEquals y.key = false ∧ y.key.looselyEquals x.key = false

variable {xs : List Contribution} {x : Contribution} {blocks : List Block}

/-! ## One contribution -/

/-- An element is put into the first group with a loosely equal key, or into a new last group. -/
theorem addToGroups_cases (key element : Value) (groups : Groups) :
    (∃ before k elements after, groups = before ++ (k, elements) :: after ∧
      (∀ g ∈ before, g.1.looselyEquals key = false) ∧ k.looselyEquals key = true ∧
      addToGroups key element groups = before ++ (k, elements ++ [element]) :: after) ∨
    (∀ g ∈ groups, g.1.looselyEquals key = false) ∧
      addToGroups key element groups = groups ++ [(key, [element])] := by
  induction groups with
  | nil => exact .inr ⟨List.forall_mem_nil _, rfl⟩
  | cons g rest ih =>
    obtain ⟨k, elements⟩ := g
    rw [addToGroups]
    cases hkey : k.looselyEquals key with
    | true => exact .inl ⟨[], k, elements, rest, rfl, List.forall_mem_nil _, hkey, rfl⟩
    | false =>
      rcases ih with ⟨before, k', elements', after, rfl, hbefore, hkey', hadd⟩ | ⟨hrest, hadd⟩
      · refine .inl ⟨(k, elements) :: before, k', elements', after, rfl,
          List.forall_mem_cons.mpr ⟨hkey, hbefore⟩, hkey', ?_⟩
        rw [if_neg Bool.false_ne_true, hadd, List.cons_append]
      · refine .inr ⟨List.forall_mem_cons.mpr ⟨hkey, hrest⟩, ?_⟩
        rw [if_neg Bool.false_ne_true, hadd, List.cons_append]

/-- A contribution in a group is one of those that are divided. -/
theorem Divides.mem (h : Divides xs blocks) {b : Block} (hb : b ∈ blocks) {y : Contribution}
    (hy : y ∈ b.all) : y ∈ xs :=
  h.perm.mem_iff.mp (List.mem_flatMap.mpr ⟨b, hb, hy⟩)

/-- A later contribution with a loosely equal key comes last in a group. -/
theorem Divides.join {before after : List Block} {b : Block}
    (h : Divides xs (before ++ b :: after)) (hlast : ∀ y ∈ xs, y.position < x.position)
    (hkey : b.key.looselyEquals x.key = true) :
    Divides (xs ++ [x]) (before ++ b.add x :: after) := by
  have hmem : b ∈ before ++ b :: after := by simp
  have hother {b' : Block} (hb' : b' ∈ before ++ b.add x :: after) :
      b' = b.add x ∨ b' ∈ before ++ b :: after := by
    simp only [List.mem_append, List.mem_cons] at hb' ⊢
    tauto
  have hfirsts : (before ++ b.add x :: after).map Block.first =
      (before ++ b :: after).map Block.first := by
    rw [List.map_append, List.map_append, List.map_cons, List.map_cons]
    rfl
  refine ⟨?_, fun b' hb' => ?_, hfirsts ▸ h.byFirst, fun b' hb' => ?_, hfirsts ▸ h.apart⟩
  · have hperm := h.perm.append_right [x]
    rw [List.flatMap_append, List.flatMap_cons] at hperm ⊢
    rw [Block.all_add]
    refine List.Perm.trans ?_ hperm
    simp only [List.append_assoc]
    exact (List.perm_append_comm.append_left b.all).append_left _
  · rcases hother hb' with rfl | hb'
    · rw [Block.all_add]
      refine List.pairwise_append.mpr ⟨h.inOrder b hmem, List.pairwise_singleton .., ?_⟩
      exact fun y hy z hz => List.mem_singleton.mp hz ▸ hlast y (h.mem hmem hy)
    · exact h.inOrder b' hb'
  · rcases hother hb' with rfl | hb'
    · rw [Block.all_add]
      exact List.forall_mem_append.mpr ⟨h.sameKey b hmem, List.forall_mem_singleton.mpr hkey⟩
    · exact h.sameKey b' hb'

/-- A later contribution with no loosely equal key starts a last group. -/
theorem Divides.start (h : Divides xs blocks) (hlast : ∀ y ∈ xs, y.position < x.position)
    (hkey : ∀ b ∈ blocks, b.key.looselyEquals x.key = false) :
    Divides (xs ++ [x]) (blocks ++ [⟨x, []⟩]) := by
  have hfirsts {b : Block} (hb : b ∈ blocks) : b.first.position < x.position :=
    hlast b.first (h.mem hb (List.mem_cons_self ..))
  refine ⟨?_, ?_, ?_, ?_, ?_⟩
  · rw [List.flatMap_append]
    exact h.perm.append_right [x]
  · exact List.forall_mem_append.mpr
      ⟨h.inOrder, List.forall_mem_singleton.mpr (List.pairwise_singleton ..)⟩
  · rw [List.map_append]
    refine List.pairwise_append.mpr ⟨h.byFirst, List.pairwise_singleton .., ?_⟩
    exact List.forall_mem_map.mpr fun b hb => List.forall_mem_singleton.mpr (hfirsts hb)
  · refine List.forall_mem_append.mpr ⟨h.sameKey, List.forall_mem_singleton.mpr ?_⟩
    exact List.forall_mem_singleton.mpr
      (Value.looselyEquals_iff.mpr (Value.compareTotal_self x.key))
  · rw [List.map_append]
    refine List.pairwise_append.mpr ⟨h.apart, List.pairwise_singleton .., ?_⟩
    refine List.forall_mem_map.mpr fun b hb => List.forall_mem_singleton.mpr ⟨hkey b hb, ?_⟩
    rw [Value.looselyEquals_comm]
    exact hkey b hb

/-- Each contribution is in the first group whose key is loosely equal to its own. -/
def FirstFit (blocks : List Block) : Prop :=
  blocks.Pairwise fun b b' => ∀ x ∈ b'.all, b.key.looselyEquals x.key = false

/-- A contribution can be put into a group when it fits none before. -/
theorem FirstFit.join {before after : List Block} {b : Block}
    (h : FirstFit (before ++ b :: after))
    (hbefore : ∀ b' ∈ before, b'.key.looselyEquals x.key = false) :
    FirstFit (before ++ b.add x :: after) := by
  obtain ⟨hfirst, hrest, hcross⟩ := List.pairwise_append.mp h
  obtain ⟨hb, hafter⟩ := List.pairwise_cons.mp hrest
  refine List.pairwise_append.mpr ⟨hfirst, List.pairwise_cons.mpr ⟨hb, hafter⟩, fun b' hb' => ?_⟩
  obtain ⟨hjoined, hlater⟩ := List.forall_mem_cons.mp (hcross b' hb')
  refine List.forall_mem_cons.mpr ⟨?_, hlater⟩
  rw [Block.all_add]
  exact List.forall_mem_append.mpr ⟨hjoined, List.forall_mem_singleton.mpr (hbefore b' hb')⟩

/-- A contribution can start a last group when it fits none. -/
theorem FirstFit.start (h : FirstFit blocks)
    (hkey : ∀ b ∈ blocks, b.key.looselyEquals x.key = false) :
    FirstFit (blocks ++ [⟨x, []⟩]) := by
  refine List.pairwise_append.mpr ⟨h, List.pairwise_singleton .., fun b hb => ?_⟩
  exact List.forall_mem_singleton.mpr (List.forall_mem_singleton.mpr (hkey b hb))

/-- The groups that blocks stand for. -/
def groupsOf (blocks : List Block) : Groups := blocks.map fun b => (b.key, b.elements)

/-- One more contribution leaves contributions divided, each in the first group that it fits. -/
theorem Divides.step (h : Divides xs blocks) (hfit : FirstFit blocks)
    (hlast : ∀ y ∈ xs, y.position < x.position) :
    ∃ next, Divides (xs ++ [x]) next ∧ FirstFit next ∧
      groupsOf next = addToGroups x.key x.element (groupsOf blocks) := by
  rcases addToGroups_cases x.key x.element (groupsOf blocks) with
    ⟨before, k, elements, after, hgroups, hbefore, hkey, hadd⟩ | ⟨hkeys, hadd⟩
  · obtain ⟨bs, rest, rfl, rfl, hrest⟩ := List.map_eq_append_iff.mp hgroups
    obtain ⟨b, cs, rfl, hb, rfl⟩ := List.map_eq_cons_iff.mp hrest
    cases hb
    refine ⟨bs ++ b.add x :: cs, h.join hlast hkey, hfit.join fun b' hb' => ?_, ?_⟩
    · exact hbefore _ (List.mem_map_of_mem hb')
    · rw [hadd, groupsOf, List.map_append, List.map_cons, Block.elements, Block.all_add,
        List.map_append]
      rfl
  · have hnone : ∀ b ∈ blocks, b.key.looselyEquals x.key = false :=
      fun b hb => hkeys _ (List.mem_map_of_mem hb)
    refine ⟨blocks ++ [⟨x, []⟩], h.start hlast hnone, hfit.start hnone, ?_⟩
    rw [hadd, groupsOf, List.map_append]
    rfl

/-- Contributions with the same key are in the same group. -/
theorem Divides.exists_common (h : Divides xs blocks) (hfit : FirstFit blocks)
    {y : Contribution} (hx : x ∈ xs) (hy : y ∈ xs) (hkey : x.key = y.key) :
    ∃ b ∈ blocks, x ∈ b.all ∧ y ∈ b.all := by
  obtain ⟨b, hb, hxb⟩ := List.mem_flatMap.mp (h.perm.mem_iff.mpr hx)
  obtain ⟨b', hb', hyb⟩ := List.mem_flatMap.mp (h.perm.mem_iff.mpr hy)
  obtain ⟨before, after, rfl⟩ := List.append_of_mem hb
  obtain ⟨-, hrest, hcross⟩ := List.pairwise_append.mp hfit
  obtain ⟨hafter, -⟩ := List.pairwise_cons.mp hrest
  have hxkey := h.sameKey b hb x hxb
  have hykey := h.sameKey b' hb' y hyb
  -- Of two different groups the first would have been fit for both.
  rcases List.mem_append.mp hb' with hbefore | hb'
  · have hne := hcross b' hbefore b (List.mem_cons_self ..) x hxb
    rw [hkey, hykey] at hne
    cases hne
  · rcases List.mem_cons.mp hb' with rfl | hb'
    · exact ⟨b', hb, hxb, hyb⟩
    · have hne := hafter b' hb' y hyb
      rw [← hkey, hxkey] at hne
      cases hne

/-! ## All contributions -/

/-- The contribution of an item with its key, its image and its position. -/
def contribution (z : (Value × Value × Value) × Nat) : Contribution := ⟨z.1.2.1, z.1.2.2, z.2⟩

/-- Putting contributions one by one into groups divides them, each into the first group that it
fits. -/
theorem exists_divides (h : xs.Pairwise fun x y => x.position < y.position) :
    ∃ blocks, Divides xs blocks ∧ FirstFit blocks ∧
      groupsOf blocks = xs.foldl (fun groups x => addToGroups x.key x.element groups) [] := by
  induction xs using List.reverseRecOn with
  | nil => exact ⟨[], ⟨.refl _, nofun, .nil, nofun, .nil⟩, .nil, rfl⟩
  | append_singleton xs x ih =>
    obtain ⟨hxs, -, hlast⟩ := List.pairwise_append.mp h
    obtain ⟨blocks, hblocks, hfit, hgroups⟩ := ih hxs
    obtain ⟨next, hnext, hnextFit, hadd⟩ :=
      hblocks.step hfit fun y hy => hlast y hy x (List.mem_singleton_self x)
    refine ⟨next, hnext, hnextFit, ?_⟩
    rw [hadd, hgroups, List.foldl_append]
    rfl

/-- Grouping divides the contributions of the items, each into the first group that it fits. -/
theorem exists_firstFit_of_groupBy {key : Selector} {image : Option Selector}
    {items groups : List Value} (h : groupBy key image items = .ok groups) :
    ∃ xs blocks, List.Forall₂ (Contributes key image) items.zipIdx xs ∧ Divides xs blocks ∧
      FirstFit blocks ∧ groups = blocks.map fun b => .group b.key b.elements := by
  obtain ⟨pairs, rfl, hpairs, rfl⟩ := exists_entries h
  have hpositions : (pairs.zipIdx.map contribution).Pairwise
      fun x y => x.position < y.position :=
    List.pairwise_map.mpr (pairwise_zipIdx pairs)
  obtain ⟨blocks, hblocks, hfit, hfold⟩ := exists_divides hpositions
  refine ⟨_, blocks, ?_, hblocks, hfit, ?_⟩
  · rw [List.zipIdx_map, List.forall₂_map_left_iff, List.forall₂_map_right_iff, List.forall₂_same]
    intro z hz
    obtain ⟨hkey, helement⟩ := hpairs z.1 (List.fst_mem_of_mem_zipIdx hz)
    exact ⟨hkey, helement, rfl⟩
  · have hentries : pairs.map Prod.snd =
        (pairs.zipIdx.map contribution).map fun x => (x.key, x.element) := by
      conv_lhs => rw [← List.zipIdx_map_fst 0 pairs]
      rw [List.map_map, List.map_map]
      rfl
    rw [hentries, List.foldl_map, ← hfold, groupsOf, List.map_map]
    rfl

/-- Grouping divides the contributions of the items. -/
theorem exists_divides_of_groupBy {key : Selector} {image : Option Selector}
    {items groups : List Value} (h : groupBy key image items = .ok groups) :
    ∃ xs blocks, List.Forall₂ (Contributes key image) items.zipIdx xs ∧ Divides xs blocks ∧
      groups = blocks.map fun b => .group b.key b.elements := by
  obtain ⟨xs, blocks, hxs, hblocks, -, hgroups⟩ := exists_firstFit_of_groupBy h
  exact ⟨xs, blocks, hxs, hblocks, hgroups⟩

/-- The elements of the groups, group by group, are those of the contributions. -/
theorem Divides.perm_elements (h : Divides xs blocks) :
    (blocks.flatMap Block.elements).Perm (xs.map Contribution.element) := by
  rw [show blocks.flatMap Block.elements = (blocks.flatMap Block.all).map Contribution.element from
    (List.map_flatMap ..).symm]
  exact h.perm.map _

end Sequence

/-! ## The grouping operator -/

namespace Expr

open Sequence (Contribution Contributes Block Divides)

variable {data : DataSource} {scope : Scope} {source key e : Expr} {more : List Expr} {v : Value}

/-- The function of an expression on single values. -/
def selector (data : DataSource) (scope : Scope) (e : Expr) : Selector :=
  fun v => (e.meaning data).apply scope [v]

/-- A grouping that has a value groups the elements of its source. -/
theorem exists_groupBy (h : ((query .groupBy (source :: key :: more)).meaning data).value scope =
    .ok v) : ∃ items groups, (source.meaning data).elements scope = .ok items ∧
      Sequence.groupBy (selector data scope key) (more[0]?.map (selector data scope)) items =
        .ok groups ∧ v = .list groups := by
  rw [meaning, meanings_eq_map] at h
  obtain ⟨items, hitems, hrest⟩ := Outcome.bind_eq_ok.mp h
  obtain ⟨k, hk, hrest⟩ := Outcome.bind_eq_ok.mp hrest
  obtain ⟨groups, hgroups, hdone⟩ := Outcome.bind_eq_ok.mp hrest
  cases hk
  refine ⟨items, groups, hitems, ?_, (Outcome.pure_eq_ok.mp hdone).symm⟩
  rw [List.getElem?_map, Option.map_map] at hgroups
  exact hgroups

/-- Putting together the groups of a list, each as it is, gives their elements. -/
theorem value_selectMany_self {blocks : List Block}
    (h : (e.meaning data).value scope = .ok (.list (blocks.map fun b => .group b.key b.elements)))
    (x : String) (t t' : Ty) :
    ((e.applyVerb .selectMany [lambda [(x, t)] (parameter x t')]).meaning data).value scope =
      .ok (.list (blocks.flatMap Block.elements)) := by
  have hself (w : Value) :
      ((lambda [(x, t)] (parameter x t')).meaning data).apply scope [w] = .ok w := by
    simp [meaning, plainMeaning, Scope.bind]
  have helements : (e.meaning data).elements scope =
      .ok (blocks.map fun b => .group b.key b.elements) := Outcome.bind_eq_ok.mpr ⟨_, h, rfl⟩
  refine Outcome.bind_eq_ok.mpr ⟨_, helements, Outcome.bind_eq_ok.mpr ⟨_, ?_, rfl⟩⟩
  exact Sequence.flatMap_eq_ok fun b _ => ⟨_, hself _, rfl⟩

/-- Main statement: the groups of a grouping that has a value divide the contributions of the
elements of its source, each with its key and its image, or itself, at its position: every
contribution is in one group, once; the key of a group is that of its first contribution and loosely
equal to those of the others; keys of two groups are not loosely equal; groups and the contributions
to each stand in the order of the source. Putting the groups together again gives all contributed
elements, in some order. -/
theorem groupBy_divides
    (h : ((query .groupBy (source :: key :: more)).meaning data).value scope = .ok v) :
    ∃ items xs blocks, (source.meaning data).elements scope = .ok items ∧
      List.Forall₂ (Contributes (selector data scope key) (more[0]?.map (selector data scope)))
        items.zipIdx xs ∧
      Divides xs blocks ∧ v = .list (blocks.map fun b => .group b.key b.elements) ∧
      ∀ (x : String) (t t' : Ty), ∃ out : List Value,
        (((query .groupBy (source :: key :: more)).applyVerb .selectMany
          [lambda [(x, t)] (parameter x t')]).meaning data).value scope = .ok (.list out) ∧
        out.Perm (xs.map Contribution.element) := by
  obtain ⟨items, groups, hitems, hgroups, rfl⟩ := exists_groupBy h
  obtain ⟨xs, blocks, hxs, hblocks, rfl⟩ := Sequence.exists_divides_of_groupBy hgroups
  refine ⟨items, xs, blocks, hitems, hxs, hblocks, rfl, fun x t t' => ?_⟩
  exact ⟨_, value_selectMany_self h x t t', hblocks.perm_elements⟩

/-- Coins, one of them counted as a floating-point number and one without a value. -/
def coins : Expr :=
  .constant (.list [.int 2, .int 1, .float (.ofInt 2), .null, .int 1]) (.seq .dynamic)

/-- The coins by their values. -/
def coinsByValue : Expr :=
  coins.applyVerb .groupBy [lambda [("c", .dynamic)] (parameter "c" .dynamic)]

/-- The floating-point coin is put with the integer coin of the same value. -/
theorem coinsByValue_groupBy_divides :
    ∃ xs blocks, Divides xs blocks ∧ (blocks.map fun b => Value.group b.key b.elements) =
      [.group (.int 2) [.int 2, .float (.ofInt 2)], .group (.int 1) [.int 1, .int 1],
        .group .null [.null]] := by
  have hvalue : (coinsByValue.meaning Store.empty.elements).value [] = .ok (.list
      [.group (.int 2) [.int 2, .float (.ofInt 2)], .group (.int 1) [.int 1, .int 1],
        .group .null [.null]]) := rfl
  obtain ⟨items, xs, blocks, -, -, hblocks, hgroups, -⟩ := groupBy_divides hvalue
  exact ⟨xs, blocks, hblocks, (Value.list.inj hgroups).symm⟩

end Expr
end QueryRelay
