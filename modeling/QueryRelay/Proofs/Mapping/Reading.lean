import Mathlib.Logic.Relation
import QueryRelay.Mapping.Basic
import QueryRelay.Proofs.Fields
import QueryRelay.Proofs.Value.Resolution

/-!
# What a result type reads off a value

Mapping keeps cells, and an account of what it is building, to share results and to notice cycles.
What it is to build can be said without them: a tree, read off the unfolding of the value to some
depth. A value that holds itself has no such tree. Main statement: a result type reads the same
trees off values that mean the same.
-/

namespace QueryRelay.Mapping

open Value (Identified SameMeaning Matches resolve unfold)

/-! ## Trees -/

/-- The tree of the result that stands for nothing; the fuel bounds how deep records hold
records. -/
def defaultTree (types : RecordTargets) : Nat → Target → Mapped
  | fuel, target =>
    match target with
    | .integer _ => .integer 0
    | .single => .single (.zero false)
    | .double => .double (.zero false)
    | .bool => .bool false
    | .text => .text ""
    | .timestamp => .timestamp ⟨0, 0⟩
    | .value => .value .null
    | .rawRecord => .rawRecord none []
    | .enum _ variants => .variant (variants.headD "")
    | .option _ => .absent
    | .list _ => .list []
    | .weak _ => .weak none
    | .boxed t | .shared t =>
      match fuel with
      | 0 => .absent
      | fuel + 1 => defaultTree types fuel t
    | .record name =>
      match fuel with
      | 0 => .absent
      | fuel + 1 =>
        match types.get? name with
        | some (.fields fields) => .record (fields.map fun f => (f.1, defaultTree types fuel f.2))
        | _ => .outline none 0
termination_by structural fuel => fuel

/-- The tree of what stands for a field that is absent, if anything does. -/
def missingTree (types : RecordTargets) : Target → Option Mapped
  | .timestamp | .rawRecord | .enum _ _ | .shared _ => none
  | .boxed t => missingTree types t
  | t => some (defaultTree types defaultDepth t)

/-- What a type without parts reads off a value. -/
def readScalar (v : Value) : Target → Option Mapped
  | .integer t => (v.toInteger t).toOption.map .integer
  | .single => v.toSingle.toOption.map .single
  | .double => v.toDouble.toOption.map .double
  | .bool => v.toBool.toOption.map .bool
  | .text => v.toText.toOption.map .text
  | .timestamp => v.toTimestamp.toOption.map .timestamp
  | .enum name variants => (v.toVariant name variants).toOption.map .variant
  | _ => none

/-- What a reading gives for a field of a record type: what it reads off the field of the source, or
what stands for its absence. -/
def readField (types : RecordTargets) (reading : Target → Value → Option Mapped)
    (source : List (String × Value)) (f : String × Target) : Option (String × Mapped) :=
  (match Fields.lookup? source f.1 with
    | some w => reading f.2 w
    | none => missingTree types f.2).map fun m => (f.1, m)

/-- The tree that a type reads off a value to a depth, if that is deep enough. Raw types and weak
holders read nothing. -/
def read (types : RecordTargets) (records : List Identified) : Nat → Target → Value → Option Mapped
  | 0, _, _ => none
  | n + 1, target, v =>
    match target with
    | .option t => if v.isNull then some .absent else (read types records n t v).map .present
    | .boxed t => read types records n t v
    | .shared t => (resolve records v).bind (read types records n t)
    | .list t =>
      match resolve records v with
      | some .null => some (.list [])
      | some (.list items) => (items.mapM (read types records n t)).map .list
      | _ => none
    | .record name =>
      match resolve records v with
      | some (.record id source) =>
        match types.get? name with
        | some (.fields fields) =>
          (fields.mapM (readField types (read types records n) source)).map .record
        | _ => some (.outline id source.length)
      | _ => none
    | t => readScalar v t
termination_by structural n => n

/-- A type reads a tree off a value. -/
def Reads (types : RecordTargets) (records : List Identified) (t : Target) (v : Value)
    (tree : Mapped) : Prop :=
  ∃ n, read types records n t v = some tree

/-! ## Traversals -/

/-- A traversal that gives something gives what its steps give. -/
theorem mapM_eq_some {α β : Type} {f : α → Option β} {xs : List α} {ys : List β} :
    xs.mapM f = some ys ↔ List.Forall₂ (fun x y => f x = some y) xs ys := by
  induction xs generalizing ys with
  | nil =>
    rw [List.mapM_nil]
    constructor
    · rintro h
      cases h
      exact .nil
    · intro h
      cases h
      rfl
  | cons x xs ih =>
    rw [List.mapM_cons]
    constructor
    · intro h
      obtain ⟨y, hy, hrest⟩ := Option.bind_eq_some_iff.mp h
      obtain ⟨ys', hys', hdone⟩ := Option.bind_eq_some_iff.mp hrest
      cases hdone
      exact .cons hy (ih.mp hys')
    · intro h
      cases h with
      | cons hy hrest => rw [hy, ih.mpr hrest]; rfl

/-- Traversals of lists with equal steps, place by place, are equal. -/
theorem mapM_congr_forall₂ {α β γ : Type} {f : α → Option γ} {g : β → Option γ} {xs : List α}
    {ys : List β} (h : List.Forall₂ (fun x y => f x = g y) xs ys) : xs.mapM f = ys.mapM g := by
  induction h with
  | nil => rfl
  | cons hxy _ ih => rw [List.mapM_cons, List.mapM_cons, hxy, ih]

/-- A traversal that gives something gives the same when its steps can give more. -/
theorem mapM_mono {α β : Type} {f g : α → Option β} (h : ∀ x y, f x = some y → g x = some y)
    {xs : List α} {ys : List β} (hxs : xs.mapM f = some ys) : xs.mapM g = some ys :=
  mapM_eq_some.mpr ((mapM_eq_some.mp hxs).imp h)

/-! ## Depth -/

variable {types : RecordTargets} {records records' : List Identified} {t : Target} {v v' w : Value}
  {tree : Mapped} {n : Nat}

/-- A reading that gives more gives the same entries. -/
theorem readField_of_imp {reading reading' : Target → Value → Option Mapped}
    (h : ∀ t v tree, reading t v = some tree → reading' t v = some tree)
    {source : List (String × Value)} {f : String × Target} {entry : String × Mapped}
    (hentry : readField types reading source f = some entry) :
    readField types reading' source f = some entry := by
  obtain ⟨m, hm, rfl⟩ := Option.map_eq_some_iff.mp hentry
  refine Option.map_eq_some_iff.mpr ⟨m, ?_, rfl⟩
  split at hm
  · exact h _ _ _ hm
  · exact hm

/-- A deeper reading gives the same tree. -/
theorem read_succ (h : read types records n t v = some tree) :
    read types records (n + 1) t v = some tree := by
  induction n generalizing t v tree with
  | zero => cases h
  | succ n ih =>
    cases t with
    | option t =>
      rw [read] at h ⊢
      split at h
      · rw [if_pos ‹_›, h]
      · obtain ⟨m, hm, rfl⟩ := Option.map_eq_some_iff.mp h
        rw [if_neg ‹_›, ih hm, Option.map_some]
    | boxed t => exact ih h
    | shared t =>
      obtain ⟨w, hw, htree⟩ := Option.bind_eq_some_iff.mp h
      exact Option.bind_eq_some_iff.mpr ⟨w, hw, ih htree⟩
    | list t =>
      rw [read] at h ⊢
      split at h
      · exact h
      · obtain ⟨ms, hms, rfl⟩ := Option.map_eq_some_iff.mp h
        rw [mapM_mono (fun _ _ => ih) hms, Option.map_some]
      · cases h
    | record name =>
      rw [read] at h ⊢
      split at h
      · split at h
        · obtain ⟨ms, hms, rfl⟩ := Option.map_eq_some_iff.mp h
          refine Option.map_eq_some_iff.mpr ⟨ms, mapM_mono (fun f m => ?_) hms, rfl⟩
          exact readField_of_imp fun _ _ _ => ih
        · exact h
      · cases h
    | _ => exact h

/-- A reading that is at least as deep gives the same tree. -/
theorem read_mono {m : Nat} (hmn : n ≤ m) (h : read types records n t v = some tree) :
    read types records m t v = some tree := by
  induction hmn with
  | refl => exact h
  | step _ ih => exact read_succ ih

/-- A reading of fields that is at least as deep gives the same entries. -/
theorem readField_mono {m : Nat} (hmn : n ≤ m) {source : List (String × Value)}
    {f : String × Target} {entry : String × Mapped}
    (h : readField types (read types records n) source f = some entry) :
    readField types (read types records m) source f = some entry :=
  readField_of_imp (fun _ _ _ => read_mono hmn) h

/-- A type reads one tree off a value. -/
theorem Reads.unique {tree' : Mapped} (h : Reads types records t v tree)
    (h' : Reads types records t v tree') : tree = tree' := by
  obtain ⟨n, hn⟩ := h
  obtain ⟨m, hm⟩ := h'
  have hdeep := read_mono (Nat.le_max_left n m) hn
  rw [read_mono (Nat.le_max_right n m) hm] at hdeep
  exact (Option.some.inj hdeep).symm

/-! ## Values that mean the same -/

/-- What has parts, or stands for a record, is no scalar. -/
theorem readScalar_unfold (records : List Identified) (n : Nat) (t : Target) (v : Value) :
    readScalar (unfold records (n + 1) v) t = readScalar v t := by
  cases v with
  | list items => cases t <;> rfl
  | record id fields => cases t <;> rfl
  | ref id =>
    cases h : Value.findRecord records id with
    | none => rw [Value.unfold_ref_of_none h]
    | some r =>
      rw [Value.unfold_ref_of_some h]
      cases t <;> rfl
  | _ => rfl

/-- A value is null when its unfolding is. -/
theorem isNull_unfold (records : List Identified) (n : Nat) (v : Value) :
    (unfold records (n + 1) v).isNull = v.isNull := by
  cases v with
  | ref id =>
    cases h : Value.findRecord records id with
    | none => rw [Value.unfold_ref_of_none h]
    | some r =>
      rw [Value.unfold_ref_of_some h]
      rfl
  | _ => rfl

/-- A type reads the same off values that mean the same. -/
theorem read_congr (h : SameMeaning records v records' v') (n : Nat) (t : Target) :
    read types records n t v = read types records' n t v' := by
  induction n generalizing t v v' with
  | zero => rfl
  | succ n ih =>
    have hscalar : readScalar v t = readScalar v' t := by
      rw [← readScalar_unfold records 0, h 1, readScalar_unfold]
    cases t with
    | option t =>
      have hnull : v.isNull = v'.isNull := by
        rw [← isNull_unfold records 0, h 1, isNull_unfold]
      rw [read, read, hnull, ih h t]
    | boxed t => exact ih h t
    | shared t =>
      rw [read, read]
      rcases h.resolve with ⟨_, -, -, hv, hv'⟩ | ⟨w, w', hv, hv', hw, -⟩
      · rw [hv, hv']
        rfl
      · rw [hv, hv', Option.bind_some, Option.bind_some, ih hw t]
    | list t =>
      rw [read, read]
      rcases h.resolve with ⟨_, -, -, hv, hv'⟩ | ⟨w, w', hv, hv', -, hmatches⟩
      · rw [hv, hv']
      · rw [hv, hv']
        cases hmatches with
        | atom hatom =>
          cases w with
          | list => exact hatom.elim
          | _ => rfl
        | list hitems =>
          dsimp only
          rw [mapM_congr_forall₂ (hitems.imp fun _ _ hitem => ih hitem t)]
        | record id hfields => rfl
    | record name =>
      rw [read, read]
      rcases h.resolve with ⟨_, -, -, hv, hv'⟩ | ⟨w, w', hv, hv', -, hmatches⟩
      · rw [hv, hv']
      · rw [hv, hv']
        cases hmatches with
        | atom hatom =>
          cases w with
          | record => exact hatom.elim
          | _ => rfl
        | list hitems => rfl
        | @record id source source' hfields =>
          have hfield (f : String × Target) :
              readField types (read types records n) source f =
                readField types (read types records' n) source' f := by
            rw [readField, readField]
            have hlookup : Option.Rel (fun w w' => SameMeaning records w records' w')
              (Fields.lookup? source f.1) (Fields.lookup? source' f.1) :=
              Fields.lookup?_rel hfields f.1
            generalize Fields.lookup? source f.1 = found at hlookup ⊢
            generalize Fields.lookup? source' f.1 = found' at hlookup ⊢
            cases hlookup with
            | none => rfl
            | some hw => exact congrArg (Option.map _) (ih hw f.2)
          dsimp only
          rw [funext hfield, hfields.length_eq]
    | _ => exact hscalar

end QueryRelay.Mapping
