import QueryRelay.Proofs.Eval.Grouping
import QueryRelay.Proofs.Value.Equality

/-!
# Equal keys

Keys that are equal and laid out alike are one key. A grouping puts all elements with one key into
one group, though loose equality is not transitive: the group is the first that the key fits. A join
finds the pairs of elements with one key, unless the key is null, which has no partner.
-/

namespace QueryRelay

namespace Sequence

/-- An inner element with a loosely equal key is a partner of a key that is not null. -/
theorem mem_partners {key l x : Value} {inner : List (Value × Value)} (hmem : (l, x) ∈ inner)
    (hnull : key.isNull = false) (hkey : key.looselyEquals l = true) :
    x ∈ partners key inner := by
  rw [partners, if_neg (by rw [hnull]; exact Bool.false_ne_true)]
  exact List.mem_map_of_mem (List.mem_filter.mpr ⟨hmem, hkey⟩)

/-- A join has a result for every two elements whose keys are loosely equal and not null. -/
theorem exists_result_of_join {outerKey innerKey : Selector}
    {result : Value → Value → Except Error Value} {outer inner vs : List Value} {o i k l : Value}
    (h : join outerKey innerKey result outer inner = .ok vs) (ho : o ∈ outer) (hi : i ∈ inner)
    (hk : outerKey o = .ok k) (hl : innerKey i = .ok l) (hnull : k.isNull = false)
    (hkl : k.looselyEquals l = true) : ∃ r ∈ vs, result o i = .ok r := by
  obtain ⟨keyed, rows, rfl, hkeyed, rfl, hrows, rfl⟩ := join_eq_ok h
  obtain ⟨row, hrow, rfl⟩ := List.mem_map.mp ho
  obtain ⟨z, hz, rfl⟩ := List.mem_map.mp hi
  obtain ⟨k', hk', hresults⟩ := hrows row hrow
  cases hk.symm.trans hk'
  cases hl.symm.trans (hkeyed z hz)
  have hpartner : z.2 ∈ partners k keyed := mem_partners hz hnull hkl
  obtain ⟨r, hr, hresult⟩ := exists_mem_of_forall₂ (Outcome.mapM_eq_ok.mp hresults) hpartner
  exact ⟨r, List.mem_flatMap.mpr ⟨row, hrow, hr⟩, hresult⟩

end Sequence

namespace Expr

open Sequence (Contribution Contributes Block Divides)

variable {data : DataSource} {scope : Scope} {outer inner outerKey innerKey result : Expr}
  {more : List Expr} {v : Value}

/-- A join that has a value joins the elements of its sources. -/
theorem exists_join
    (h : ((query .join (outer :: inner :: outerKey :: innerKey :: result :: more)).meaning
      data).value scope = .ok v) :
    ∃ os is vs, (outer.meaning data).elements scope = .ok os ∧
      (inner.meaning data).elements scope = .ok is ∧
      Sequence.join (selector data scope outerKey) (selector data scope innerKey)
        (fun o i => (result.meaning data).apply scope [o, i]) os is = .ok vs ∧ v = .list vs := by
  rw [meaning, meanings_eq_map] at h
  obtain ⟨os, hos, h⟩ := Outcome.bind_eq_ok.mp h
  obtain ⟨is, his, h⟩ := Outcome.bind_eq_ok.mp h
  obtain ⟨vs, hvs, hdone⟩ := Outcome.bind_eq_ok.mp h
  exact ⟨os, is, vs, hos, his, hvs, (Outcome.pure_eq_ok.mp hdone).symm⟩

/-- Main statement: equal values that are laid out alike, so that records list the same names in the
same order and zeros have the same sign, are loosely equal. Of a grouping that has a value, two
contributions with such keys are in one group. Of a join that has a value, two elements with such
keys have their result in it, unless the keys are null. -/
theorem equal_keys_meet (data : DataSource) (scope : Scope) :
    (∀ v w : Value, w.WellNamed → v.equals w = true → v.laidOutAlike w = true →
      v.looselyEquals w = true) ∧
    (∀ source key more v,
      ((query .groupBy (source :: key :: more)).meaning data).value scope = .ok v →
      ∃ items xs blocks, (source.meaning data).elements scope = .ok items ∧
        List.Forall₂ (Contributes (selector data scope key) (more[0]?.map (selector data scope)))
          items.zipIdx xs ∧
        Divides xs blocks ∧ v = .list (blocks.map fun b => .group b.key b.elements) ∧
        ∀ x ∈ xs, ∀ y ∈ xs, y.key.WellNamed → x.key.equals y.key = true →
          x.key.laidOutAlike y.key = true → ∃ b ∈ blocks, x ∈ b.all ∧ y ∈ b.all) ∧
    ∀ outer inner outerKey innerKey result more v,
      ((query .join (outer :: inner :: outerKey :: innerKey :: result :: more)).meaning
        data).value scope = .ok v →
      ∃ os is vs, (outer.meaning data).elements scope = .ok os ∧
        (inner.meaning data).elements scope = .ok is ∧ v = .list vs ∧
        ∀ o ∈ os, ∀ i ∈ is, ∀ k l, selector data scope outerKey o = .ok k →
          selector data scope innerKey i = .ok l → l.WellNamed → k.equals l = true →
          k.laidOutAlike l = true → k.isNull = false →
          ∃ r ∈ vs, (result.meaning data).apply scope [o, i] = .ok r := by
  refine ⟨fun v w hw h => (Value.looselyEquals_iff_laidOutAlike hw h).mpr, ?_, ?_⟩
  · intro source key more v h
    obtain ⟨items, groups, hitems, hgroups, rfl⟩ := exists_groupBy h
    obtain ⟨xs, blocks, hxs, hblocks, hfit, rfl⟩ := Sequence.exists_firstFit_of_groupBy hgroups
    refine ⟨items, xs, blocks, hitems, hxs, hblocks, rfl, fun x hx y hy hnamed hequal halike => ?_⟩
    have hkey : x.key = y.key := Value.discerns_laidOutAlike.eq_of_equals hnamed hequal halike
    exact hblocks.exists_common hfit hx hy hkey
  · intro outer inner outerKey innerKey result more v h
    obtain ⟨os, is, vs, hos, his, hvs, rfl⟩ := exists_join h
    refine ⟨os, is, vs, hos, his, rfl, ?_⟩
    intro o ho i hi k l hk hl hnamed hequal halike hnull
    have hkl := (Value.looselyEquals_iff_laidOutAlike hnamed hequal).mpr halike
    exact Sequence.exists_result_of_join hvs ho hi hk hl hnull hkl

end Expr

/-- A place in a building. -/
def Value.place : Value := .record none [("Level", .float (.zero true)), ("Room", .int 12)]

/-- A place names no field twice. -/
theorem Value.place_wellNamed : place.WellNamed := by
  refine .node ?_ (List.forall_mem_cons.mpr ⟨?_, List.forall_mem_singleton.mpr ?_⟩)
  · rintro _ _ ⟨⟩
    decide
  · exact .node nofun nofun
  · exact .node nofun nofun

/-- Two fields in alphabetical order. -/
def Value.forwards : Value := .record none [("A", .int 1), ("B", .int 2)]

/-- The same fields in the other order. -/
def Value.backwards : Value := .record none [("B", .int 2), ("A", .int 1)]

namespace Expr

open Sequence (Divides)
open Value (place place_wellNamed forwards backwards)

/-- A place twice, and no place. -/
def places : Expr := .constant (.list [place, .null, place]) (.seq .dynamic)

/-- The function that gives an element itself. -/
def itself : Expr := lambda [("p", .dynamic)] (parameter "p" .dynamic)

/-- The places, joined with themselves. -/
def placePairs : Expr :=
  places.applyVerb .join [places, itself, itself,
    lambda [("p", .dynamic), ("q", .dynamic)] (array .dynamic [parameter "q" .dynamic])]

/-- The place is loosely equal to itself, its two occurrences are in one group, and they have a
result in the join. -/
theorem place_equal_keys_meet :
    place.looselyEquals place = true ∧
    (∃ xs blocks, (blocks.map fun b => Value.group b.key b.elements) =
        [.group place [place, place], .group .null [.null]] ∧ Divides xs blocks ∧
      ∀ x ∈ xs, ∀ y ∈ xs, x.key = place → y.key = place →
        ∃ b ∈ blocks, x ∈ b.all ∧ y ∈ b.all) ∧
    ∃ vs, (placePairs.meaning Store.empty.elements).value [] = .ok (.list vs) ∧
      .list [place] ∈ vs := by
  have hmeet := equal_keys_meet Store.empty.elements []
  have hequal : place.equals place = true := rfl
  have halike : place.laidOutAlike place = true := rfl
  refine ⟨hmeet.1 place place place_wellNamed hequal halike, ?_, ?_⟩
  · have hvalue : ((places.applyVerb .groupBy [itself]).meaning Store.empty.elements).value [] =
        .ok (.list [.group place [place, place], .group .null [.null]]) := rfl
    obtain ⟨items, xs, blocks, -, -, hblocks, hv, hsame⟩ := hmeet.2.1 _ _ _ _ hvalue
    refine ⟨xs, blocks, (Value.list.inj hv).symm, hblocks, ?_⟩
    intro x hx y hy hxkey hykey
    refine hsame x hx y hy ?_ ?_ ?_
    · rw [hykey]
      exact place_wellNamed
    · rw [hxkey, hykey]
      exact hequal
    · rw [hxkey, hykey]
      exact halike
  · have hvalue : (placePairs.meaning Store.empty.elements).value [] =
        .ok (.list [.list [place], .list [place], .list [place], .list [place]]) := rfl
    obtain ⟨os, is, vs, hos, his, hv, hpairs⟩ := hmeet.2.2 _ _ _ _ _ _ _ hvalue
    obtain rfl : [place, .null, place] = os := Except.ok.inj hos
    obtain rfl : [place, .null, place] = is := Except.ok.inj his
    have hmem : place ∈ [place, .null, place] := List.mem_cons_self ..
    obtain ⟨r, hr, hresult⟩ := hpairs place hmem place hmem place place rfl rfl place_wellNamed
      hequal halike rfl
    obtain rfl : .list [place] = r := Except.ok.inj hresult
    exact ⟨vs, hv ▸ hvalue, hr⟩

/-- Equal values that are not laid out alike need not be loosely equal: neither records with fields
in another order nor zeros of different signs are, and such records are not grouped together. Null
is equal to null, and has no partner. -/
theorem equal_keys_miss :
    (forwards.equals backwards = true ∧ forwards.looselyEquals backwards = false) ∧
    Sequence.groupBy .ok none [forwards, backwards] =
      .ok [.group forwards [forwards], .group backwards [backwards]] ∧
    ((Value.float (.zero false)).equals (.float (.zero true)) = true ∧
      (Value.float (.zero false)).looselyEquals (.float (.zero true)) = false) ∧
    Value.null.equals .null = true ∧
      Sequence.join .ok .ok (fun _ _ => .ok (.int 1)) [.null] [.null] = .ok [] :=
  ⟨⟨rfl, rfl⟩, rfl, ⟨rfl, rfl⟩, rfl, rfl⟩

end Expr
end QueryRelay
