import QueryRelay.Proofs.Expr.Parts
import QueryRelay.Proofs.Fields
import QueryRelay.Proofs.Typing.Queries
import QueryRelay.Proofs.Value.References

/-!
# Conditions that evaluation keeps

Evaluation takes values apart and puts new ones together from the parts, but it makes up no
reference and no record with an identity. So a condition that passes to the parts of a value, and
from the parts to a value of any other kind, passes from the rows, the constants and the results of
functions to the value of an expression, by induction on the expression. Main statement: the value
of an expression fulfils such a condition.
-/

namespace QueryRelay

namespace Value

/-- A value that is no reference and has no identity. -/
def IsAnonymous : Value → Prop
  | .ref _ => False
  | .record id _ => id = none
  | _ => True

/-- A condition on values that passes to the direct parts, and from these to a value that is no
reference and has no identity. -/
structure Hereditary (P : Value → Prop) : Prop where
  /-- It passes to the direct parts. -/
  part : ∀ {v w}, P v → w ∈ v.children → P w
  /-- It passes from the direct parts to a value without identity. -/
  whole : ∀ {v}, v.IsAnonymous → (∀ w ∈ v.children, P w) → P v

/-- That all references name certain identities is hereditary. -/
theorem hereditary_refs (S : ObjectId → Prop) : Hereditary fun v => ∀ id ∈ v.refs, S id where
  part hv hw id hid := hv id (mem_refs_of_mem_children hw hid)
  whole hanonymous hparts id hid := by
    rcases mem_refs.mp hid with rfl | ⟨w, hw, hid⟩
    · exact hanonymous.elim
    · exact hparts w hw id hid

/-- That all records with an identity are among certain ones is hereditary. -/
theorem hereditary_identified (R : Identified → Prop) :
    Hereditary fun v => ∀ r ∈ v.identified, R r where
  part hv hw r hr := hv r (mem_identified_of_mem_children hw hr)
  whole hanonymous hparts r hr := by
    rcases mem_identified.mp hr with rfl | ⟨w, hw, hr⟩
    · cases hanonymous
    · exact hparts w hw r hr

namespace Hereditary

variable {P : Value → Prop} {v w : Value} {items : List Value}

/-- It holds of a value without identity and without parts. -/
theorem atom (h : Hereditary P) (hanonymous : v.IsAnonymous) (hchildren : v.children = []) : P v :=
  h.whole hanonymous (hchildren ▸ List.forall_mem_nil _)

/-- It passes from items to their list. -/
theorem list (h : Hereditary P) (hitems : ∀ w ∈ items, P w) : P (.list items) :=
  h.whole trivial hitems

/-- It passes from the values of entries to the record that is made of them. -/
theorem record (h : Hereditary P) {entries : List (String × Value)}
    (hentries : ∀ x ∈ entries, P x.2) : P (.record none (Fields.ofEntries entries)) := by
  refine h.whole rfl (List.forall_mem_map.mpr fun x hx => ?_)
  exact hentries x (Fields.mem_of_mem_ofEntries hx)

/-- It passes from a key and elements to their group. -/
theorem group (h : Hereditary P) (hkey : P v) (hitems : ∀ w ∈ items, P w) :
    P (.group v items) := by
  refine h.whole rfl (List.forall_mem_cons.mpr ⟨hkey, List.forall_mem_singleton.mpr ?_⟩)
  exact h.list hitems

/-- It passes from the fields of a record to each value that is found among them. -/
theorem field (h : Hereditary P) {id : Option ObjectId} {fields : List (String × Value)}
    (hv : P (.record id fields)) {x : String × Value} (hx : x ∈ fields) : P x.2 :=
  h.part hv (List.mem_map_of_mem hx)

/-- It passes to the elements. -/
theorem elements (h : Hereditary P) (hv : P v) (hitems : v.elements = .ok items) :
    ∀ w ∈ items, P w := by
  cases v with
  | list _ =>
    cases hitems
    exact fun w hw => h.part hv hw
  | null =>
    cases hitems
    exact List.forall_mem_nil _
  | record id fields =>
    rw [Value.elements] at hitems
    split at hitems
    · next hfound _ =>
      cases hitems
      have hlist := h.field hv (Fields.mem_of_get?_eq_some hfound)
      exact fun w hw => h.part hlist hw
    · cases hitems
  | _ => cases hitems

/-- It passes to the members. -/
theorem member (h : Hereditary P) {name : String} (hv : P v) (hw : v.member name = .ok w) :
    P w := by
  have hatom {u : Value} (heq : (.ok u : Except Error Value) = .ok w) (hu : u.IsAnonymous)
      (hchildren : u.children = []) : P w := by
    cases heq
    exact h.atom hu hchildren
  cases v with
  | null => exact hatom hw trivial rfl
  | record id fields =>
    cases hfound : Fields.lookup? fields name with
    | none =>
      rw [Value.member, hfound] at hw
      exact hatom hw trivial rfl
    | some u =>
      rw [Value.member, hfound] at hw
      cases hw
      obtain ⟨n, hmem, -⟩ := Fields.exists_sameName_of_lookup? hfound
      exact h.field hv hmem
  | text | list =>
    rw [Value.member] at hw
    split at hw
    · exact hatom hw trivial rfl
    · cases hw
  | timestamp t =>
    rw [Value.member] at hw
    split at hw
    · exact hatom hw trivial rfl
    · split at hw
      · exact hatom hw trivial rfl
      · split at hw
        · exact hatom hw trivial rfl
        · cases hw
  | _ => cases hw

end Hereditary
end Value

open Value (Hereditary)

variable {P : Value → Prop}

/-! ## Operators -/

/-- It holds of the result of an operator on one value. -/
theorem UnaryOp.apply_hereditary (h : Hereditary P) {op : UnaryOp} {v w : Value}
    (hw : op.apply v = .ok w) : P w := by
  cases op with
  | not =>
    cases v with
    | null | bool b =>
      cases hw
      exact h.atom trivial rfl
    | _ => cases hw
  | negate =>
    cases v with
    | null | float x =>
      cases hw
      exact h.atom trivial rfl
    | int n =>
      rw [UnaryOp.apply] at hw
      split at hw <;> cases hw
      exact h.atom trivial rfl
    | _ => cases hw

namespace BinaryOp

variable {op : BinaryOp} {l r x : Value}

/-- It holds of the result of arithmetic. -/
theorem arithmetic_hereditary (h : Hereditary P) (hx : op.arithmetic l r = .ok x) : P x := by
  rw [arithmetic] at hx
  split at hx
  · cases hx
    exact h.atom trivial rfl
  · split at hx
    · cases hx
      exact h.atom trivial rfl
    · rw [onNumbers.eq_def] at hx
      split at hx
      · obtain ⟨k, rfl⟩ := onInts_eq_ok hx
        exact h.atom trivial rfl
      · split at hx
        · obtain ⟨y, rfl⟩ := onFloats_eq_ok hx
          exact h.atom trivial rfl
        · cases hx

/-- It holds of the result of an operator when it holds of the values of the operands. -/
theorem applyIn_hereditary (h : Hereditary P) {left right : Scope → Except Error Value}
    {scope : Scope} (hl : ∀ v, left scope = .ok v → P v) (hr : ∀ v, right scope = .ok v → P v)
    (hx : op.applyIn left right scope = .ok x) : P x := by
  by_cases hop : (op.isComparison || op.isLogical) = true
  · obtain ⟨b, rfl⟩ := applyIn_eq_ok_of_bool hop hx
    exact h.atom trivial rfl
  · obtain ⟨v, hv, hx⟩ := Outcome.bind_eq_ok.mp hx
    cases op with
    | coalesce =>
      dsimp only at hx
      split at hx
      · exact hr x hx
      · cases hx
        exact hl _ hv
    | add | sub | mul | div | rem =>
      obtain ⟨w, -, hx⟩ := Outcome.bind_eq_ok.mp hx
      exact arithmetic_hereditary h hx
    | _ => exact absurd rfl hop

end BinaryOp

/-! ## Sequences -/

namespace Sequence

variable {items vs : List Value} {v : Value}

/-- It passes from a key and an image of each element to the groups. -/
theorem groupBy_hereditary (h : Hereditary P) {key : Selector} {image : Option Selector}
    (hkey : ∀ v ∈ items, ∀ k, key v = .ok k → P k)
    (himage : ∀ v ∈ items, ∀ w, image.getD .ok v = .ok w → P w)
    (hvs : groupBy key image items = .ok vs) : ∀ w ∈ vs, P w := by
  obtain ⟨groups, hgroups, rfl⟩ := groupBy_eq_ok hkey himage hvs
  refine List.forall_mem_map.mpr fun g hg => ?_
  exact h.group (hgroups g hg).1 (hgroups g hg).2

/-- It holds of a sum. -/
theorem sum_hereditary (h : Hereditary P) (hv : sum items = .ok v) : P v := by
  rw [sum] at hv
  split at hv
  · obtain ⟨n, -, rfl⟩ := Outcome.map_eq_ok.mp hv
    exact h.atom trivial rfl
  · obtain ⟨x, -, rfl⟩ := Outcome.map_eq_ok.mp hv
    exact h.atom trivial rfl

/-- It passes from the elements and their images to an aggregate. -/
theorem aggregate_hereditary (h : Hereditary P) {func : Aggregate} {argument : Option Selector}
    (hitems : ∀ w ∈ items, P w)
    (himage : ∀ v ∈ items, ∀ w, argument.getD .ok v = .ok w → P w)
    (hv : aggregate func argument items = .ok v) : P v := by
  have hqualifying {vs : List Value} (hvs : qualifying argument items = .ok vs) : ∀ w ∈ vs, P w :=
    fun w hw => hitems w ((qualifying_sublist hvs).subset hw)
  have hpresent {vs : List Value} (hvs : present argument items = .ok vs) : ∀ w ∈ vs, P w :=
    fun w hw => (present_forall himage hvs w hw).1
  cases func with
  | count | any | all =>
    obtain ⟨vs, -, rfl⟩ := Outcome.map_eq_ok.mp hv
    exact h.atom trivial rfl
  | sum =>
    obtain ⟨vs, -, hsum⟩ := Outcome.bind_eq_ok.mp hv
    exact sum_hereditary h hsum
  | average =>
    obtain ⟨vs, -, haverage⟩ := Outcome.bind_eq_ok.mp hv
    rw [average] at haverage
    split at haverage
    · cases haverage
    · obtain ⟨x, -, rfl⟩ := Outcome.map_eq_ok.mp haverage
      exact h.atom trivial rfl
  | min =>
    obtain ⟨vs, hvs, hleast⟩ := Outcome.bind_eq_ok.mp hv
    exact hpresent hvs v (least_mem (orFault_eq_ok hleast))
  | max =>
    obtain ⟨vs, hvs, hgreatest⟩ := Outcome.bind_eq_ok.mp hv
    exact hpresent hvs v (greatest_mem (orFault_eq_ok hgreatest))
  | first =>
    obtain ⟨vs, hvs, hfirst⟩ := Outcome.bind_eq_ok.mp hv
    exact hqualifying hvs v (List.mem_of_mem_head? (orFault_eq_ok hfirst))
  | firstOrDefault =>
    obtain ⟨vs, hvs, rfl⟩ := Outcome.map_eq_ok.mp hv
    cases vs with
    | nil => exact h.atom trivial rfl
    | cons w rest => exact hqualifying hvs w (List.mem_cons_self ..)
  | single =>
    obtain ⟨vs, hvs, honly⟩ := Outcome.bind_eq_ok.mp hv
    rcases only_eq_ok honly with hmem | hfault
    · exact hqualifying hvs v hmem
    · cases hfault
  | singleOrDefault =>
    obtain ⟨vs, hvs, honly⟩ := Outcome.bind_eq_ok.mp hv
    rcases only_eq_ok honly with hmem | hnull
    · exact hqualifying hvs v hmem
    · cases hnull
      exact h.atom trivial rfl

end Sequence

/-! ## Meanings -/

/-- A condition on the values in scope. -/
def Scope.All (P : Value → Prop) (scope : Scope) : Prop := ∀ x ∈ scope, P x.2

/-- Binding parameters to arguments that fulfil a condition keeps a scope right. -/
theorem Scope.All.bind {scope : Scope} (h : scope.All P) {params : List String}
    {args : List Value} (hargs : ∀ v ∈ args, P v) : (scope.bind params args).All P := by
  intro x hx
  rcases List.mem_append.mp hx with hx | hx
  · exact hargs x.2 (List.of_mem_zip (List.mem_reverse.mp hx)).2
  · exact h x hx

/-- A meaning keeps a condition: its values, its results on arguments and the source of the sort
that it ends fulfil the condition when what is in scope and the arguments do. -/
structure Meaning.Keeps (P : Value → Prop) (m : Meaning) : Prop where
  /-- Its values fulfil the condition. -/
  value : ∀ scope, scope.All P → ∀ v, m.value scope = .ok v → P v
  /-- Its results fulfil the condition. -/
  apply : ∀ scope, scope.All P → ∀ args, (∀ v ∈ args, P v) → ∀ v, m.apply scope args = .ok v → P v
  /-- The source of the sort that it ends fulfils the condition. -/
  chain : ∀ ch, m.chain = .ok ch → ∀ scope, scope.All P → ∀ v, ch.source scope = .ok v → P v

namespace Meaning

variable {ms : List Meaning} {scope : Scope} {v : Value}

/-- The elements of a meaning that keeps a condition fulfil it. -/
theorem Keeps.elements {m : Meaning} (h : m.Keeps P) (hP : Hereditary P) (hscope : scope.All P)
    {items : List Value} (hitems : m.elements scope = .ok items) : ∀ w ∈ items, P w := by
  obtain ⟨v, hv, hitems⟩ := Outcome.bind_eq_ok.mp hitems
  exact hP.elements (h.value scope hscope v hv) hitems

/-- An argument that is there is one of the arguments. -/
theorem argument_mem {operator : String} {i : Nat} {m : Meaning}
    (h : argument operator ms i = .ok m) : m ∈ ms := by
  rw [argument] at h
  split at h
  · next hfound =>
    cases h
    exact List.mem_of_getElem? hfound
  · cases h

/-- A filter, a skip and a take give elements of their source in the same order. -/
theorem query_sublist {verb : QueryVerb} (hverb : verb = .filter ∨ verb = .skip ∨ verb = .take)
    (hv : query verb ms scope = .ok v) :
    ∃ items vs, (argument verb.name ms 0 >>= fun m => m.elements scope) = .ok items ∧
      v = .list vs ∧ vs.Sublist items := by
  rcases hverb with rfl | rfl | rfl
  · obtain ⟨items, hitems, hkeep⟩ := Outcome.bind_eq_ok.mp hv
    obtain ⟨kept, hkept, hdone⟩ := Outcome.bind_eq_ok.mp hkeep
    cases hdone
    exact ⟨items, kept, hitems, rfl, Sequence.keep_sublist hkept⟩
  · obtain ⟨items, hitems, hrest⟩ := Outcome.bind_eq_ok.mp hv
    obtain ⟨m, -, hcounted⟩ := Outcome.bind_eq_ok.mp hrest
    obtain ⟨w, -, hcount⟩ := Outcome.bind_eq_ok.mp hcounted
    obtain ⟨n, -, hdone⟩ := Outcome.bind_eq_ok.mp hcount
    cases hdone
    exact ⟨items, items.drop n, hitems, rfl, List.drop_sublist n items⟩
  · obtain ⟨items, hitems, hrest⟩ := Outcome.bind_eq_ok.mp hv
    obtain ⟨m, -, hcounted⟩ := Outcome.bind_eq_ok.mp hrest
    obtain ⟨w, -, hcount⟩ := Outcome.bind_eq_ok.mp hcounted
    obtain ⟨n, -, hdone⟩ := Outcome.bind_eq_ok.mp hcount
    cases hdone
    exact ⟨items, items.take n, hitems, rfl, List.take_sublist n items⟩

/-- A sort gives the elements of the source of its chain, rearranged. -/
theorem sorted_perm {ch : SortChain} (hv : sorted ch scope = .ok v) :
    ∃ w items vs, ch.source scope = .ok w ∧ w.elements = .ok items ∧ v = .list vs ∧
      vs.Perm items := by
  obtain ⟨w, hw, hrest⟩ := Outcome.bind_eq_ok.mp hv
  obtain ⟨items, hitems, hsort⟩ := Outcome.bind_eq_ok.mp hrest
  obtain ⟨vs, hvs, hdone⟩ := Outcome.bind_eq_ok.mp hsort
  cases hdone
  exact ⟨w, items, vs, hw, hitems, rfl, Sequence.sort_perm hvs⟩

/-- The chain that a sort operator ends keeps a condition that its arguments keep. -/
theorem sortChain_keeps {verb : QueryVerb} (hms : ∀ m ∈ ms, m.Keeps P) {ch : SortChain}
    (hch : sortChain verb ms = .ok ch) (hscope : scope.All P) (hv : ch.source scope = .ok v) :
    P v := by
  obtain ⟨isFirst, direction, rfl⟩ := exists_sortVerb hch
  rcases ms with _ | ⟨source, _ | ⟨key, rest⟩⟩
  · cases hch
  · cases hch
  · have hsource := hms source (List.mem_cons_self ..)
    rcases sortChain_source hch with hown | ⟨ch', hch', hkept⟩
    · rw [hown] at hv
      exact hsource.value scope hscope v hv
    · rw [hkept] at hv
      exact hsource.chain ch' hch' scope hscope v hv

/-- A query operator keeps a condition that its arguments keep. -/
theorem query_keeps (hP : Hereditary P) {verb : QueryVerb} (hms : ∀ m ∈ ms, m.Keeps P)
    (hscope : scope.All P) (hv : query verb ms scope = .ok v) : P v := by
  -- Arguments are asked for by place, early or late; whichever is there keeps the condition.
  have helements {i : Nat} {items : List Value}
      (h : (argument verb.name ms i >>= fun m => m.elements scope) = .ok items) :
      ∀ w ∈ items, P w := by
    obtain ⟨m, hm, hitems⟩ := Outcome.bind_eq_ok.mp h
    exact (hms m (argument_mem hm)).elements hP hscope hitems
  have hlate {i : Nat} {args : List Value} (hargs : ∀ x ∈ args, P x) {w : Value}
      (h : (argument verb.name ms i >>= fun m => m.apply scope args) = .ok w) : P w := by
    obtain ⟨m, hm, hw⟩ := Outcome.bind_eq_ok.mp h
    exact (hms m (argument_mem hm)).apply scope hscope args hargs w hw
  have himage {m : Meaning} (hm : m ∈ ms) {x w : Value} (hx : P x)
      (hw : m.apply scope [x] = .ok w) : P w :=
    (hms m hm).apply scope hscope [x] (List.forall_mem_singleton.mpr hx) w hw
  have hoptional {i : Nat} {x w : Value} (hx : P x)
      (hw : (ms[i]?.map fun m y => m.apply scope [y] : Option Selector).getD .ok x = .ok w) :
      P w := by
    cases hm : ms[i]? with
    | none =>
      rw [hm] at hw
      cases hw
      exact hx
    | some m =>
      rw [hm] at hw
      exact himage (List.mem_of_getElem? hm) hx hw
  cases verb with
  | filter | skip | take =>
    obtain ⟨items, vs, hitems, rfl, hsublist⟩ := query_sublist (by simp) hv
    exact hP.list fun x hx => helements hitems x (hsublist.subset hx)
  | select =>
    obtain ⟨items, hitems, hselect⟩ := Outcome.bind_eq_ok.mp hv
    obtain ⟨m, hm, hmap⟩ := Outcome.bind_eq_ok.mp hselect
    obtain ⟨images, himages, hdone⟩ := Outcome.bind_eq_ok.mp hmap
    cases hdone
    obtain ⟨pairs, rfl, rfl, hpairs⟩ := Outcome.mapM_eq_ok_iff_pairs.mp himages
    refine hP.list (List.forall_mem_map.mpr fun z hz => ?_)
    exact himage (argument_mem hm) (helements hitems _ (List.mem_map_of_mem hz)) (hpairs z hz)
  | selectMany =>
    obtain ⟨items, hitems, hmap⟩ := Outcome.bind_eq_ok.mp hv
    obtain ⟨images, himages, hdone⟩ := Outcome.bind_eq_ok.mp hmap
    cases hdone
    refine hP.list (Sequence.flatMap_forall (fun x hx w hw ws hws => ?_) himages)
    exact hP.elements (hlate (List.forall_mem_singleton.mpr (helements hitems x hx)) hw) hws
  | orderBy | orderByDescending | thenBy | thenByDescending =>
    obtain ⟨ch, hch, hsorted⟩ := Outcome.bind_eq_ok.mp hv
    obtain ⟨w, items, vs, hw, hitems, rfl, hperm⟩ := sorted_perm hsorted
    have hsource := hP.elements (sortChain_keeps hms hch hscope hw) hitems
    exact hP.list fun x hx => hsource x (hperm.mem_iff.mp hx)
  | groupBy =>
    obtain ⟨items, hitems, hkeyed⟩ := Outcome.bind_eq_ok.mp hv
    obtain ⟨m, hm, hgroup⟩ := Outcome.bind_eq_ok.mp hkeyed
    obtain ⟨groups, hgroups, hdone⟩ := Outcome.bind_eq_ok.mp hgroup
    cases hdone
    refine hP.list (Sequence.groupBy_hereditary hP (fun x hx w hw => ?_) (fun x hx w hw => ?_)
      hgroups)
    · exact himage (argument_mem hm) (helements hitems x hx) hw
    · exact hoptional (helements hitems x hx) hw
  | join =>
    obtain ⟨outer, houter, hrest⟩ := Outcome.bind_eq_ok.mp hv
    obtain ⟨inner, hinner, hjoin⟩ := Outcome.bind_eq_ok.mp hrest
    obtain ⟨results, hresults, hdone⟩ := Outcome.bind_eq_ok.mp hjoin
    cases hdone
    refine hP.list (Sequence.join_forall (fun o ho i hi w hw => ?_) hresults)
    refine hlate (List.forall_mem_cons.mpr ⟨helements houter o ho, ?_⟩) hw
    exact List.forall_mem_singleton.mpr (helements hinner i hi)
  | «include» | thenInclude =>
    obtain ⟨m, hm, hvalue⟩ := Outcome.bind_eq_ok.mp hv
    exact (hms m (argument_mem hm)).value scope hscope v hvalue
  | aggregate func =>
    obtain ⟨items, hitems, hvalue⟩ := Outcome.bind_eq_ok.mp hv
    have hP' := helements hitems
    exact Sequence.aggregate_hereditary hP hP' (fun x hx w hw => hoptional (hP' x hx) hw) hvalue

end Meaning

/-! ## Expressions -/

namespace Expr

variable {data : DataSource}

/-- What an expression brings in at its root fulfils a condition: its constant, the rows that it
reads, or the result of its function on arguments that do. -/
def BringsAt (P : Value → Prop) (data : DataSource) : Expr → Prop
  | .constant v _ | .captured _ _ v => P v
  | .source t => ∀ rows, data t = .ok rows → ∀ row ∈ rows, P row
  | .call f _ => ∀ args, (∀ v ∈ args, P v) → ∀ v, f.run args = .ok v → P v
  | _ => True

/-- An expression that is no lambda and no query operator keeps a condition that its values
fulfil. -/
theorem plainMeaning_keeps {e : Expr} {value : Scope → Except Error Value}
    (hvalue : ∀ scope, scope.All P → ∀ v, value scope = .ok v → P v) :
    (plainMeaning e value).Keeps P where
  value := hvalue
  apply _ _ _ _ _ h := nomatch h
  chain _ h := nomatch h

/-- The values of expressions that keep a condition fulfil it. -/
theorem values_of_keeps {es : List Expr} (h : ∀ e ∈ es, (e.meaning data).Keeps P) {scope : Scope}
    (hscope : scope.All P) {vs : List Value}
    (hvs : ((meanings data es).mapM fun m => m.value scope) = .ok vs) : ∀ v ∈ vs, P v := by
  rw [meanings_eq_map, List.mapM_map] at hvs
  obtain ⟨pairs, rfl, rfl, hpairs⟩ := Outcome.mapM_eq_ok_iff_pairs.mp hvs
  refine List.forall_mem_map.mpr fun z hz => ?_
  exact (h z.1 (List.mem_map_of_mem hz)).value scope hscope z.2 (hpairs z hz)

/-- The record of the values of named expressions that keep a condition fulfils it. -/
theorem record_of_keeps (hP : Hereditary P) {bs : List (String × Expr)}
    (h : ∀ b ∈ bs, (b.2.meaning data).Keeps P) {scope : Scope} (hscope : scope.All P) {v : Value}
    (hv : (do return .record none (Fields.ofEntries (← (memberMeanings data bs).mapM fun m =>
      return (m.1, ← m.2.value scope)))) = (.ok v : Except Error Value)) : P v := by
  obtain ⟨entries, hentries, hdone⟩ := Outcome.bind_eq_ok.mp hv
  cases hdone
  rw [memberMeanings_eq_map, List.mapM_map] at hentries
  obtain ⟨pairs, rfl, rfl, hpairs⟩ := Outcome.mapM_eq_ok_iff_pairs.mp hentries
  refine hP.record (List.forall_mem_map.mpr fun z hz => ?_)
  obtain ⟨w, hw, hentry⟩ := Outcome.bind_eq_ok.mp (hpairs z hz)
  rw [← Outcome.pure_eq_ok.mp hentry]
  exact (h z.1 (List.mem_map_of_mem hz)).value scope hscope w hw

/-- An expression keeps a condition that what it brings in fulfils. -/
theorem meaning_keeps (hP : Hereditary P) (e : Expr) (h : e.Every (BringsAt P data)) :
    (e.meaning data).Keeps P := by
  induction e with
  | constant v t | captured n t v =>
    have hroot := (every_iff.mp h).1
    refine plainMeaning_keeps fun _ _ w hw => ?_
    cases hw
    exact hroot
  | source t =>
    have hroot := (every_iff.mp h).1
    refine plainMeaning_keeps fun _ _ v hv => ?_
    obtain ⟨rows, hrows, rfl⟩ := Outcome.map_eq_ok.mp hv
    exact hP.list (hroot rows hrows)
  | parameter n t =>
    refine plainMeaning_keeps fun scope hscope v hv => ?_
    cases hfound : List.lookup n scope with
    | none =>
      rw [hfound] at hv
      cases hv
    | some w =>
      rw [hfound] at hv
      cases hv
      obtain ⟨x, hx, rfl⟩ := List.mem_map.mp (exists_mem_of_lookup_eq_some hfound)
      exact hscope x hx
  | member target name ih =>
    have htarget := ih ((every_iff.mp h).2 _ (by simp [children]))
    refine plainMeaning_keeps fun scope hscope v hv => ?_
    obtain ⟨w, hw, hmember⟩ := Outcome.bind_eq_ok.mp hv
    exact hP.member (htarget.value scope hscope w hw) hmember
  | unary op operand _ =>
    refine plainMeaning_keeps fun scope _ v hv => ?_
    obtain ⟨w, -, hresult⟩ := Outcome.bind_eq_ok.mp hv
    exact UnaryOp.apply_hereditary hP hresult
  | binary op l r ihl ihr =>
    have hleft := ihl ((every_iff.mp h).2 _ (by simp [children]))
    have hright := ihr ((every_iff.mp h).2 _ (by simp [children]))
    refine plainMeaning_keeps fun scope hscope v hv => ?_
    exact BinaryOp.applyIn_hereditary hP (hleft.value scope hscope) (hright.value scope hscope) hv
  | conditional t p q _ ihp ihq =>
    have hp := ihp ((every_iff.mp h).2 _ (by simp [children]))
    have hq := ihq ((every_iff.mp h).2 _ (by simp [children]))
    refine plainMeaning_keeps fun scope hscope v hv => ?_
    obtain ⟨w, -, hbranch⟩ := Outcome.bind_eq_ok.mp hv
    obtain ⟨b, -, hvalue⟩ := Outcome.bind_eq_ok.mp hbranch
    cases b with
    | true => exact hp.value scope hscope v hvalue
    | false => exact hq.value scope hscope v hvalue
  | lambda params body ih =>
    have hbody := ih ((every_iff.mp h).2 _ (by simp [children]))
    refine ⟨?_, ?_, ?_⟩
    · intro _ _ _ hv
      cases hv
    · intro scope hscope args hargs v hv
      rw [meaning] at hv
      dsimp only at hv
      split at hv
      · exact hbody.value _ (hscope.bind hargs) v hv
      · cases hv
    · intro _ hch
      cases hch
  | query verb args ih =>
    have hms : ∀ m ∈ meanings data args, m.Keeps P := by
      rw [meanings_eq_map]
      exact List.forall_mem_map.mpr fun e he => ih e he ((every_iff.mp h).2 e he)
    refine ⟨?_, ?_, ?_⟩
    · intro scope hscope v hv
      exact Meaning.query_keeps hP hms hscope hv
    · intro _ _ _ _ _ hv
      cases hv
    · intro ch hch scope hscope v hv
      exact Meaning.sortChain_keeps hms hch hscope hv
  | call f args ih =>
    have hroot := (every_iff.mp h).1
    have hargs : ∀ e ∈ args, (e.meaning data).Keeps P :=
      fun e he => ih e he ((every_iff.mp h).2 e he)
    refine plainMeaning_keeps fun scope hscope v hv => ?_
    obtain ⟨vs, hvs, hresult⟩ := Outcome.bind_eq_ok.mp hv
    exact hroot vs (values_of_keeps hargs hscope hvs) v hresult
  | object members ih =>
    refine plainMeaning_keeps fun scope hscope v hv => ?_
    refine record_of_keeps hP (fun b hb => ih b hb ?_) hscope hv
    exact (every_iff.mp h).2 _ (List.mem_map_of_mem hb)
  | array t items ih | list t items ih =>
    have hitems : ∀ e ∈ items, (e.meaning data).Keeps P :=
      fun e he => ih e he ((every_iff.mp h).2 e he)
    refine plainMeaning_keeps fun scope hscope v hv => ?_
    obtain ⟨vs, hvs, hdone⟩ := Outcome.bind_eq_ok.mp hv
    cases hdone
    exact hP.list (values_of_keeps hitems hscope hvs)
  | construct t bindings ih =>
    refine plainMeaning_keeps fun scope hscope v hv => ?_
    refine record_of_keeps hP (fun b hb => ih b hb ?_) hscope hv
    exact (every_iff.mp h).2 _ (List.mem_map_of_mem hb)

/-- The value of an expression fulfils every hereditary condition that its constants, the rows that
it reads and the results of its functions fulfil. -/
theorem evaluate_hereditary (hP : Hereditary P) {e : Expr} (h : e.Every (BringsAt P data))
    {v : Value} (hv : e.evaluate data = .ok v) : P v :=
  (meaning_keeps hP e h).value [] (List.forall_mem_nil _) v hv

end Expr

end QueryRelay
