import QueryRelay.Proofs.Eval.Scopes
import QueryRelay.Proofs.Eval.Sequences

/-!
# A join as a nested query

A join evaluates the keys of the inner elements once and looks up each outer key among them; null is
not looked up. The nested query evaluates the inner source and both keys again below each outer
element, with its parameter in scope. Main statement: when a join has a value, the nested query has
the same one, with the same matches in the same order.
-/

namespace QueryRelay

/-- Only null is loosely equal to null. -/
theorem Value.looselyEquals_null (v : Value) : v.looselyEquals .null = v.isNull := by
  cases v <;> rfl

/-- A test by a key and the keys of the elements keeps the partners of the key. -/
theorem Sequence.keep_partners {test : Selector} {key : Value} {keyed : List (Value × Value)}
    (h : ∀ z ∈ keyed, test z.2 = .ok (.bool (!key.isNull && key.looselyEquals z.1))) :
    keep test (keyed.map Prod.snd) = .ok (partners key keyed) := by
  have htest : ∀ z ∈ keyed, (test z.2 >>= Value.truth) =
      .ok (!key.isNull && key.looselyEquals z.1) :=
    fun z hz => Outcome.bind_eq_ok.mpr ⟨_, h z hz, rfl⟩
  have hpasses : keyed.filter (passes test ∘ Prod.snd) =
      keyed.filter fun z => !key.isNull && key.looselyEquals z.1 :=
    List.filter_congr fun z hz => passes_of_eq_ok (htest z hz)
  rw [keep_eq_ok (List.forall_mem_map.mpr fun z hz => ⟨_, htest z hz⟩), List.filter_map, hpasses,
    partners]
  cases key.isNull with
  | true => simp only [Bool.not_true, Bool.false_and, List.filter_false, List.map_nil, if_true]
  | false => simp only [Bool.not_false, Bool.true_and, Bool.false_eq_true, if_false]

/-- The parts of a join. Neither the inner source nor the key of either side reads the parameter of
the other side; the two parameters need not have different names. -/
structure Joining where
  /-- The outer source. -/
  outer : Expr
  /-- The inner source. -/
  inner : Expr
  /-- The name of the outer element. -/
  outerName : String
  /-- The name of the inner element. -/
  innerName : String
  /-- The key of an outer element. -/
  outerKey : Expr
  /-- The key of an inner element. -/
  innerKey : Expr
  /-- The result for a pair of elements. -/
  result : Expr
  /-- The inner source is the same for all outer elements. -/
  inner_free : outerName ∉ inner.free
  /-- The outer key is the same for all inner elements. -/
  outerKey_free : innerName ∉ outerKey.free
  /-- The inner key is the same for all outer elements. -/
  innerKey_free : outerName ∉ innerKey.free

namespace Joining

variable {data : DataSource} {scope : Scope} {j : Joining} {o k v : Value}
  {keyed : List (Value × Value)} {out : List Value}

/-- The join, whose lambdas declare types of their parameters. -/
def join (j : Joining) (outerType innerType resultOuter resultInner : Ty) : Expr :=
  j.outer.applyVerb .join [j.inner, .lambda [(j.outerName, outerType)] j.outerKey,
    .lambda [(j.innerName, innerType)] j.innerKey,
    .lambda [(j.outerName, resultOuter), (j.innerName, resultInner)] j.result]

/-- The outer key is there and the keys are equal. -/
def matching (j : Joining) (nullType : Ty) : Expr :=
  .binary .and (.binary .ne j.outerKey (.constant .null nullType))
    (.binary .eq j.outerKey j.innerKey)

/-- The results for one outer element: the inner elements are filtered, and what is kept is
selected from. -/
def row (j : Joining) (filterType selectType nullType : Ty) : Expr :=
  (j.inner.applyVerb .filter [.lambda [(j.innerName, filterType)] (j.matching nullType)]).applyVerb
    .select [.lambda [(j.innerName, selectType)] j.result]

/-- The nested query: the results for each outer element, one after the other. -/
def nested (j : Joining) (outerType filterType selectType nullType : Ty) : Expr :=
  j.outer.applyVerb .selectMany
    [.lambda [(j.outerName, outerType)] (j.row filterType selectType nullType)]

/-- The scope with an outer element. -/
def within (j : Joining) (scope : Scope) (o : Value) : Scope := (j.outerName, o) :: scope

/-- The test of an inner element below an outer one compares their keys. -/
theorem value_matching {i l : Value} (nullType : Ty)
    (hk : (j.outerKey.meaning data).value (j.within scope o) = .ok k)
    (hl : (j.innerKey.meaning data).value ((j.innerName, i) :: scope) = .ok l) :
    ((j.matching nullType).meaning data).value ((j.innerName, i) :: j.within scope o) =
      .ok (.bool (!k.isNull && k.looselyEquals l)) := by
  have houter : (j.outerKey.meaning data).value ((j.innerName, i) :: j.within scope o) = .ok k := by
    rw [← hk]
    exact Expr.value_congr (Scope.agreeOn_cons j.outerKey_free i _)
  have hinner : (j.innerKey.meaning data).value ((j.innerName, i) :: j.within scope o) = .ok l := by
    rw [← hl]
    exact Expr.value_congr ((Scope.agreeOn_cons j.innerKey_free o scope).cons _)
  have hnull : (BinaryOp.ne.applyIn (j.outerKey.meaning data).value (fun _ => .ok .null)
      ((j.innerName, i) :: j.within scope o)) = .ok (.bool !k.isNull) :=
    Outcome.bind_eq_ok.mpr ⟨k, houter, by rw [← k.looselyEquals_null]; rfl⟩
  have hequal : (BinaryOp.eq.applyIn (j.outerKey.meaning data).value
      (j.innerKey.meaning data).value ((j.innerName, i) :: j.within scope o)) =
        .ok (.bool (k.looselyEquals l)) :=
    Outcome.bind_eq_ok.mpr ⟨k, houter, Outcome.bind_eq_ok.mpr ⟨l, hinner, rfl⟩⟩
  refine Outcome.bind_eq_ok.mpr ⟨_, hnull, ?_⟩
  -- Where the outer key is null, the keys are not compared.
  cases k.isNull with
  | true => rfl
  | false =>
    exact Outcome.bind_eq_ok.mpr ⟨true, rfl, Outcome.bind_eq_ok.mpr ⟨_, hequal, rfl⟩⟩

/-- The results for one outer element are those with the partners of its key. -/
theorem value_row (filterType selectType nullType : Ty)
    (hinner : (j.inner.meaning data).elements scope = .ok (keyed.map Prod.snd))
    (hkeyed : ∀ z ∈ keyed, (j.innerKey.meaning data).value ((j.innerName, z.2) :: scope) = .ok z.1)
    (hk : (j.outerKey.meaning data).value (j.within scope o) = .ok k)
    (hout : ((Sequence.partners k keyed).mapM fun i =>
      (j.result.meaning data).value ((j.innerName, i) :: j.within scope o)) = .ok out) :
    ((j.row filterType selectType nullType).meaning data).value (j.within scope o) =
      .ok (.list out) := by
  have hsame : (j.inner.meaning data).elements (j.within scope o) = .ok (keyed.map Prod.snd) := by
    rw [← hinner]
    exact Expr.elements_congr (Scope.agreeOn_cons j.inner_free o scope)
  have hkept : (((j.inner.applyVerb .filter
      [.lambda [(j.innerName, filterType)] (j.matching nullType)]).meaning data).elements
        (j.within scope o)) = .ok (Sequence.partners k keyed) := by
    refine Outcome.bind_eq_ok.mpr ⟨.list (Sequence.partners k keyed), ?_, rfl⟩
    refine Outcome.bind_eq_ok.mpr ⟨_, hsame, Outcome.bind_eq_ok.mpr ⟨_, ?_, rfl⟩⟩
    exact Sequence.keep_partners fun z hz => value_matching nullType hk (hkeyed z hz)
  refine Outcome.bind_eq_ok.mpr ⟨_, hkept, Outcome.bind_eq_ok.mpr ⟨_, rfl, ?_⟩⟩
  exact Outcome.bind_eq_ok.mpr ⟨_, hout, rfl⟩

/-- Main statement: when a join has a value over some data and in some scope, the nested query has
the same value. -/
theorem nested_value_eq_join (outerType innerType resultOuter resultInner nestedOuter filterType
    selectType nullType : Ty)
    (h : ((j.join outerType innerType resultOuter resultInner).meaning data).value scope = .ok v) :
    ((j.nested nestedOuter filterType selectType nullType).meaning data).value scope = .ok v := by
  obtain ⟨outer, houter, h⟩ := Outcome.bind_eq_ok.mp h
  obtain ⟨inner, hinner, h⟩ := Outcome.bind_eq_ok.mp h
  obtain ⟨vs, hjoin, hdone⟩ := Outcome.bind_eq_ok.mp h
  cases hdone
  obtain ⟨keyed, rows, rfl, hkeyed, rfl, hrows, rfl⟩ := Sequence.join_eq_ok hjoin
  refine Outcome.bind_eq_ok.mpr ⟨_, houter, Outcome.bind_eq_ok.mpr ⟨_, ?_, rfl⟩⟩
  refine Sequence.flatMap_eq_ok fun r hr => ⟨.list r.2, ?_, rfl⟩
  obtain ⟨k, hk, hout⟩ := hrows r hr
  exact value_row filterType selectType nullType hinner hkeyed hk hout

/-- Numbers paired with equal ones, among them one of another kind, several equal ones and nulls. -/
def equalNumbers : Joining where
  outer := .constant (.list [.int 1, .null, .int 2]) (.seq .dynamic)
  inner := .constant (.list [.float (.ofInt 2), .int 1, .null, .int 2, .int 1]) (.seq .dynamic)
  outerName := "a"
  innerName := "b"
  outerKey := .parameter "a" .dynamic
  innerKey := .parameter "b" .dynamic
  result := .array .dynamic [.parameter "a" .dynamic, .parameter "b" .dynamic]
  inner_free := by decide
  outerKey_free := by decide
  innerKey_free := by decide

/-- The number one has two partners, the number two has both kinds of it, and null has none. -/
def equalPairs : Value :=
  .list [.list [.int 1, .int 1], .list [.int 1, .int 1], .list [.int 2, .float (.ofInt 2)],
    .list [.int 2, .int 2]]

/-- The join and the nested query give the pairs of equal numbers. -/
theorem equalNumbers_nested_value_eq_join :
    ((equalNumbers.join .dynamic .dynamic .dynamic .dynamic).meaning
      Store.empty.elements).value [] = .ok equalPairs ∧
    ((equalNumbers.nested .dynamic .dynamic .dynamic .dynamic).meaning
      Store.empty.elements).value [] = .ok equalPairs := by
  have hjoin : ((equalNumbers.join .dynamic .dynamic .dynamic .dynamic).meaning
      Store.empty.elements).value [] = .ok equalPairs := rfl
  exact ⟨hjoin, nested_value_eq_join _ _ _ _ .dynamic .dynamic .dynamic .dynamic hjoin⟩

end Joining
end QueryRelay
