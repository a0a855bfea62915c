import QueryRelay.Proofs.Descriptor.Names

/-!
# Descriptors are read back from their texts

The canonical text of a descriptor is a faithful encoding. Each reader gives an item back from the
text it was written as, whatever stands behind it as long as that cannot go on with a descriptor;
and each reader gives well-formed items only. Main statement: a well-formed descriptor is what its
text reads as, and every text that can be read gives a well-formed descriptor.
-/

namespace QueryRelay.Descriptor

/-! ## Well-formed descriptors -/

/-- The names of a descriptor and of everything in it can be written and told apart. -/
inductive WellFormed : Descriptor → Prop where
  /-- A descriptor is well-formed when its own names and all its parts are. -/
  | intro {d : Descriptor} (name : IsName d.name) (space : ∀ s, d.space = some s → IsSpace s)
      (args : ∀ a ∈ d.args, WellFormed a) (memberNames : ∀ m ∈ d.members, IsName m.1)
      (members : ∀ m ∈ d.members, WellFormed m.2) : WellFormed d

/-! ## Texts -/

/-- Texts between two brackets with commas between them, or nothing when there is no text. -/
def bracketed (left right : Char) (texts : List (List Char)) : List Char :=
  if texts.isEmpty then [] else left :: ([',', ' '].intercalate texts ++ [right])

/-- The text of a member: its name, a colon and the text of its type. -/
def memberText (m : String × Descriptor) : List Char :=
  m.1.toList ++ ':' :: ' ' :: m.2.render.toList

/-- Type arguments are written one by one. -/
theorem renderAll_eq_map (ds : List Descriptor) : renderAll ds = ds.map render := by
  induction ds with
  | nil => rfl
  | cons d rest ih => rw [renderAll, ih, List.map_cons]

/-- Members are written one by one. -/
theorem renderMembers_eq_map (ms : List (String × Descriptor)) :
    renderMembers ms = ms.map fun m => m.1 ++ ": " ++ m.2.render := by
  induction ms with
  | nil => rfl
  | cons m rest ih =>
    obtain ⟨name, d⟩ := m
    rw [renderMembers, ih, List.map_cons]

/-- What stands behind the name of a descriptor. -/
def behindName (d : Descriptor) : List Char :=
  bracketed '<' '>' (d.args.map fun a => a.render.toList) ++
    (bracketed '\x7b' '\x7d' (d.members.map memberText) ++
      ((if d.isCollection then "[]".toList else []) ++ (if d.isNullable then "?".toList else [])))

/-- The parts of the text of a descriptor. -/
theorem toList_render (d : Descriptor) :
    d.render.toList = (if d.isEnum then "enum ".toList else []) ++
      (d.qualifiedName.toList ++ d.behindName) := by
  obtain ⟨name, space, args, isCollection, isEnum, isNullable, members⟩ := d
  have hargs : (if args.isEmpty then "" else "<" ++ ", ".intercalate (renderAll args) ++ ">").toList
      = bracketed '<' '>' (args.map fun a => a.render.toList) := by
    cases args with
    | nil => rfl
    | cons a rest =>
      rw [renderAll_eq_map]
      simp [bracketed, String.toList_intercalate, Function.comp_def]
  have hmembers : (if members.isEmpty then ""
        else "\x7b" ++ ", ".intercalate (renderMembers members) ++ "\x7d").toList
      = bracketed '\x7b' '\x7d' (members.map memberText) := by
    cases members with
    | nil => rfl
    | cons m rest =>
      have htext (m : String × Descriptor) :
          (m.1 ++ ": " ++ m.2.render).toList = memberText m := by simp [memberText]
      rw [renderMembers_eq_map]
      simp only [List.isEmpty_cons, Bool.false_eq_true, if_false, String.toList_append,
        String.toList_intercalate, List.map_map, Function.comp_def, htext, bracketed]
      rfl
  rw [render, behindName]
  simp only [String.toList_append, hargs, hmembers, apply_ite String.toList, List.append_assoc]
  rfl

/-! ## What stands behind an item -/

/-- A text is empty or goes on with one of these marks. -/
def GoesOn (marks rest : List Char) : Prop := ∀ c ∈ rest.head?, c ∈ marks

/-- What holds of the marks holds of the next character. -/
theorem GoesOn.forall {marks rest : List Char} (h : GoesOn marks rest) {p : Char → Prop}
    [DecidablePred p] (hp : marks.all (p ·) = true) : ∀ c ∈ rest.head?, p c :=
  fun c hc => of_decide_eq_true (List.all_eq_true.mp hp c (h c hc))

/-- In front of a text stands a mark or nothing. -/
theorem GoesOn.cons {marks rest : List Char} (h : GoesOn marks rest) (c : Char) {text : List Char}
    (htext : text = [] ∨ ∃ more, text = c :: more) : GoesOn (c :: marks) (text ++ rest) := by
  rcases htext with rfl | ⟨more, rfl⟩
  · exact fun b hb => List.mem_cons_of_mem _ (h b hb)
  · rintro b ⟨⟩
    exact List.mem_cons_self

/-- What can stand behind a descriptor within a longer text: nothing, a comma or a closing
bracket. -/
def Ends (rest : List Char) : Prop := GoesOn [',', '>', '\x7d'] rest

/-- The reader gives the item back from the text and leaves what stands behind it. -/
def ReadsBack {α : Type} (readItem : List Char → Option (α × List Char)) (text : List Char)
    (item : α) : Prop :=
  ∀ rest, Ends rest → readItem (text ++ rest) = some (item, rest)

/-- A text starts with something that is no gap. -/
def Starts (text : List Char) : Prop := ∃ c rest, text = c :: rest ∧ isGap c = false

/-- No gap is skipped in front of a text. -/
theorem Starts.skipGap_append {text : List Char} (h : Starts text) (rest : List Char) :
    skipGap (text ++ rest) = text ++ rest := by
  obtain ⟨c, more, rfl, hc⟩ := h
  simp [skipGap, hc]

/-- A text starts where its first part starts. -/
theorem Starts.append {text : List Char} (h : Starts text) (rest : List Char) :
    Starts (text ++ rest) := by
  obtain ⟨c, more, rfl, hc⟩ := h
  exact ⟨c, more ++ rest, rfl, hc⟩

/-- A name starts with no gap. -/
theorem IsName.starts {name : String} (h : IsName name) : Starts name.toList := by
  obtain ⟨c, rest, hc, hchar⟩ := h.exists_cons
  exact ⟨c, rest, hc, isGap_of_isNameChar hchar⟩

/-- A mark and a blank are read when a text follows. -/
theorem readMark_append (mark : Char) (hmark : isGap mark = false) {text : List Char}
    (h : Starts text) (rest : List Char) :
    readMark mark (mark :: ' ' :: (text ++ rest)) = some (text ++ rest) := by
  have hskip : skipGap (' ' :: (text ++ rest)) = text ++ rest := h.skipGap_append rest
  have hfirst : skipGap (mark :: ' ' :: (text ++ rest)) = mark :: ' ' :: (text ++ rest) := by
    simp [skipGap, hmark]
  simp only [readMark, hfirst, if_true, hskip]

/-- Another mark is not read. -/
theorem readMark_of_ne {mark c : Char} (hc : isGap c = false) (hne : c ≠ mark) (rest : List Char) :
    readMark mark (c :: rest) = none := by
  have hfirst : skipGap (c :: rest) = c :: rest := by simp [skipGap, hc]
  simp only [readMark, hfirst, if_neg hne]

/-! ## Lists of items -/

section Lists

variable {α : Type} {readItem : List Char → Option (α × List Char)} {text : α → List Char}
  {left right : Char}

/-- A closing bracket ends the items. -/
def Closes (right : Char) : Prop := right = '>' ∨ right = '\x7d'

/-- A closing bracket ends an item. -/
theorem Closes.ends (h : Closes right) (rest : List Char) : Ends (right :: rest) := by
  rintro c ⟨⟩
  exact List.mem_cons_of_mem _ (by simpa [Closes] using h)

/-- A comma ends an item. -/
theorem ends_comma (rest : List Char) : Ends (',' :: rest) := by
  rintro c ⟨⟩
  exact List.mem_cons_self

/-- A closing bracket is no comma. -/
theorem Closes.readMark (h : Closes right) (rest : List Char) :
    readMark ',' (right :: rest) = none := by
  rcases h with rfl | rfl <;> exact readMark_of_ne (by decide) (by decide) rest

/-- Items are read back up to a closing bracket when each of them is. -/
theorem readSeparated_append (hright : Closes right) {items : List α} (hne : items ≠ [])
    (hitems : ∀ x ∈ items, ReadsBack readItem (text x) x ∧ Starts (text x)) {count : Nat}
    (hcount : items.length ≤ count) (rest : List Char) :
    readSeparated readItem count ([',', ' '].intercalate (items.map text) ++ right :: rest) =
      some (items, right :: rest) := by
  induction items generalizing count with
  | nil => exact absurd rfl hne
  | cons x more ih =>
    obtain ⟨count, rfl⟩ := Nat.exists_eq_add_one.mpr (Nat.lt_of_lt_of_le (by simp) hcount)
    have hx := (hitems x List.mem_cons_self).1
    cases more with
    | nil =>
      have htext : [',', ' '].intercalate ([x].map text) ++ right :: rest =
          text x ++ right :: rest := by simp
      rw [htext, readSeparated]
      simp only [hx _ (hright.ends rest), hright.readMark rest, Option.bind_none]
    | cons y more =>
      have hlength : (y :: more).length ≤ count := by simpa using hcount
      have hmore := ih (by simp) (fun z hz => hitems z (List.mem_cons_of_mem _ hz)) hlength
      have hstart : Starts ([',', ' '].intercalate ((y :: more).map text)) := by
        have hy := (hitems y (by simp)).2
        cases more with
        | nil => simpa using hy
        | cons z more => simpa [List.intercalate_cons_cons] using hy.append _
      have htext : [',', ' '].intercalate ((x :: y :: more).map text) ++ right :: rest =
          text x ++ ',' :: ' ' :: ([',', ' '].intercalate ((y :: more).map text) ++
            right :: rest) := by
        simp [List.intercalate_cons_cons]
      rw [htext, readSeparated]
      simp only [hx _ (ends_comma _), readMark_append ',' (by decide) hstart, Option.bind_some,
        hmore]

/-- There are no more items than characters in their texts. -/
theorem length_le_of_starts {items : List α} (h : ∀ x ∈ items, Starts (text x)) :
    items.length ≤ ([',', ' '].intercalate (items.map text)).length := by
  induction items with
  | nil => simp
  | cons x more ih =>
    have hmore := ih fun y hy => h y (List.mem_cons_of_mem _ hy)
    obtain ⟨c, cs, hc, -⟩ := h x List.mem_cons_self
    cases more with
    | nil => simp [hc]
    | cons y more =>
      rw [List.map_cons, List.map_cons, List.intercalate_cons_cons, ← List.map_cons]
      simp only [List.length_append, List.length_cons] at hmore ⊢
      omega

/-- An item is shorter than the items between brackets. -/
theorem length_lt_bracketed (left right : Char) {texts : List (List Char)} {t : List Char}
    (h : t ∈ texts) :
    t.length < (bracketed left right texts).length := by
  have inner : ∀ ts : List (List Char), t ∈ ts → t.length ≤ ([',', ' '].intercalate ts).length := by
    intro ts hts
    induction ts with
    | nil => cases hts
    | cons u more ih =>
      cases more with
      | nil => simp [List.mem_singleton.mp hts]
      | cons v more =>
        rw [List.intercalate_cons_cons]
        simp only [List.length_append]
        rcases List.mem_cons.mp hts with rfl | hts
        · omega
        · have := ih hts
          omega
  have := inner texts h
  obtain ⟨u, more, rfl⟩ := List.exists_cons_of_ne_nil (List.ne_nil_of_mem h)
  simp only [bracketed, List.isEmpty_cons, Bool.false_eq_true, if_false, List.length_cons,
    List.length_append]
  omega

/-- Brackets start with the opening one, if there are any. -/
theorem bracketed_eq_nil_or_cons (left right : Char) (texts : List (List Char)) :
    bracketed left right texts = [] ∨ ∃ more, bracketed left right texts = left :: more := by
  cases texts with
  | nil => exact .inl rfl
  | cons t rest => exact .inr ⟨_, rfl⟩

/-- Items between brackets are read back, and where there are none nothing is read. -/
theorem readBracketed_append (hright : Closes right) {items : List α}
    (hitems : ∀ x ∈ items, ReadsBack readItem (text x) x ∧ Starts (text x)) {rest : List Char}
    (hrest : ∀ c ∈ rest.head?, c ≠ left) :
    readBracketed left right readItem (bracketed left right (items.map text) ++ rest) =
      (items, rest) := by
  cases items with
  | nil =>
    cases rest with
    | nil => rfl
    | cons c rest => simp [bracketed, readBracketed, hrest c rfl]
  | cons x more =>
    have hlength := length_le_of_starts fun y hy => (hitems y hy).2
    have htext : bracketed left right ((x :: more).map text) ++ rest =
        left :: ([',', ' '].intercalate ((x :: more).map text) ++ right :: rest) := by
      simp [bracketed]
    have hcount : (x :: more).length ≤
        (left :: ([',', ' '].intercalate ((x :: more).map text) ++ right :: rest)).length := by
      simp only [List.length_cons, List.length_append] at hlength ⊢
      omega
    have hread := readSeparated_append hright (List.cons_ne_nil x more) hitems hcount rest
    rw [htext, readBracketed]
    simp only [if_true, hread]

/-- What is read as items has the property that each item has. -/
theorem forall_of_readSeparated {p : α → Prop}
    (h : ∀ cs x rest, readItem cs = some (x, rest) → p x) {count : Nat} {cs rest : List Char}
    {items : List α} (hread : readSeparated readItem count cs = some (items, rest)) :
    ∀ x ∈ items, p x := by
  induction count generalizing cs items rest with
  | zero => cases hread
  | succ count ih =>
    rw [readSeparated] at hread
    split at hread
    · cases hread
    · rename_i x cs' hx
      split at hread
      · rename_i more rest' hmore
        obtain ⟨cs'', -, hmore⟩ := Option.bind_eq_some_iff.mp hmore
        cases hread
        intro y hy
        rcases List.mem_cons.mp hy with rfl | hy
        · exact h _ _ _ hx
        · exact ih hmore y hy
      · cases hread
        intro y hy
        rw [List.mem_singleton.mp hy]
        exact h _ _ _ hx

/-- What is read between brackets has the property that each item has. -/
theorem forall_of_mem_readBracketed {p : α → Prop}
    (h : ∀ cs x rest, readItem cs = some (x, rest) → p x) (cs : List Char) :
    ∀ x ∈ (readBracketed left right readItem cs).1, p x := by
  unfold readBracketed
  split
  · split
    · split
      · rename_i hread
        split
        · exact forall_of_readSeparated h hread
        · simp
      · simp
    · simp
  · simp

end Lists

/-! ## Members and marks -/

/-- A member is read back when its type is. -/
theorem readMember_append {readType : List Char → Option (Descriptor × List Char)}
    {m : String × Descriptor} (hname : IsName m.1) (hstart : Starts m.2.render.toList)
    (htype : ReadsBack readType m.2.render.toList m.2) :
    ReadsBack (readMember readType) (memberText m) m := by
  intro rest hrest
  have htext : memberText m ++ rest = m.1.toList ++ ':' :: ' ' :: (m.2.render.toList ++ rest) := by
    simp [memberText]
  have hfirst : readName (m.1.toList ++ ':' :: ' ' :: (m.2.render.toList ++ rest)) =
      some (m.1, ':' :: ' ' :: (m.2.render.toList ++ rest)) :=
    readName_append hname (by rintro c ⟨⟩; decide)
  rw [htext, readMember, hname.starts.skipGap_append]
  simp only [hfirst, readMark_append ':' (by decide) hstart, Option.bind_some, htype rest hrest]

/-- What is read as a member has a name, and its type has the property that each type has. -/
theorem forall_of_readMember {readType : List Char → Option (Descriptor × List Char)}
    {p : Descriptor → Prop} (h : ∀ cs d rest, readType cs = some (d, rest) → p d) (cs : List Char)
    (m : String × Descriptor) (rest : List Char) (hread : readMember readType cs = some (m, rest)) :
    IsName m.1 ∧ p m.2 := by
  simp only [readMember] at hread
  split at hread
  · cases hread
  · rename_i hname
    split at hread
    · cases hread
    · rename_i htype
      obtain ⟨cs', -, htype⟩ := Option.bind_eq_some_iff.mp htype
      cases hread
      exact ⟨isName_of_readName hname, h _ _ _ htype⟩

/-- The mark of an enumeration is read where it stands, and a name that starts like it is none. -/
theorem readEnumMark_append (isEnum : Bool) {name : String} (hname : IsName name)
    {rest : List Char} (hrest : ∀ c ∈ rest.head?, isNameChar c = false ∧ c ≠ ' ') :
    readEnumMark ((if isEnum then "enum ".toList else []) ++ (name.toList ++ rest)) =
      (isEnum, name.toList ++ rest) := by
  have hskip := hname.starts.skipGap_append rest
  cases isEnum with
  | true =>
    show (true, skipGap (name.toList ++ rest)) = _
    rw [hskip]
  | false =>
    simp only [Bool.false_eq_true, if_false, List.nil_append]
    unfold readEnumMark
    split
    · rename_i more heq
      -- The name would be the word itself, with a blank behind it.
      have hread := readName_append hname fun c hc => (hrest c hc).1
      rw [heq] at hread
      have henum : IsName "enum" := ⟨by decide, List.all_eq_true.mp (by decide)⟩
      have hword : readName ('e' :: 'n' :: 'u' :: 'm' :: ' ' :: more) =
          some ("enum", ' ' :: more) :=
        readName_append henum (by rintro c ⟨⟩; decide)
      rw [hword] at hread
      cases hread
      exact absurd rfl (hrest ' ' rfl).2
    · rw [hskip]

/-- The mark of a collection is read where it stands. -/
theorem readCollectionMark_append (isCollection : Bool) {rest : List Char}
    (hrest : ∀ c ∈ rest.head?, c ≠ '[') :
    readCollectionMark ((if isCollection then "[]".toList else []) ++ rest) =
      (isCollection, rest) := by
  cases isCollection with
  | true => rfl
  | false =>
    simp only [Bool.false_eq_true, if_false, List.nil_append]
    unfold readCollectionMark
    split
    · exact absurd rfl (hrest '[' rfl)
    · rfl

/-- The mark for null is read where it stands. -/
theorem readNullableMark_append (isNullable : Bool) {rest : List Char}
    (hrest : ∀ c ∈ rest.head?, c ≠ '?') :
    readNullableMark ((if isNullable then "?".toList else []) ++ rest) = (isNullable, rest) := by
  cases isNullable with
  | true => rfl
  | false =>
    simp only [Bool.false_eq_true, if_false, List.nil_append]
    unfold readNullableMark
    split
    · exact absurd rfl (hrest '?' rfl)
    · rfl

/-! ## Descriptors -/

/-- The text of a well-formed descriptor starts with no gap. -/
theorem WellFormed.starts {d : Descriptor} (h : WellFormed d) : Starts d.render.toList := by
  obtain ⟨hname, hspace, -, -, -⟩ := h
  obtain ⟨first, names, hfirst, -, -, hpath⟩ := exists_path hname hspace
  rw [toList_render, hpath]
  cases d.isEnum with
  | true => exact ⟨'e', _, rfl, by decide⟩
  | false =>
    rw [List.append_assoc]
    exact hfirst.starts.append _

/-- What stands behind a name is read part by part, up to what cannot go on with a descriptor. -/
theorem exists_reads_behindName {d : Descriptor} {fuel : Nat}
    (hargs : ∀ a ∈ d.args, ReadsBack (readParts fuel) a.render.toList a ∧ Starts a.render.toList)
    (hmembers : ∀ m ∈ d.members, ReadsBack (readMember (readParts fuel)) (memberText m) m ∧
      Starts (memberText m)) {rest : List Char} (hrest : Ends rest) :
    ∃ withMembers listed marked,
      readBracketed '<' '>' (readParts fuel) (d.behindName ++ rest) = (d.args, withMembers) ∧
      readBracketed '\x7b' '\x7d' (readMember (readParts fuel)) withMembers =
        (d.members, listed) ∧
      readCollectionMark listed = (d.isCollection, marked) ∧
      readNullableMark marked = (d.isNullable, rest) ∧
      GoesOn ['<', '\x7b', '[', '?', ',', '>', '\x7d'] (d.behindName ++ rest) := by
  have hmarked : GoesOn ['?', ',', '>', '\x7d']
      ((if d.isNullable then "?".toList else []) ++ rest) :=
    hrest.cons '?' (by cases d.isNullable <;> simp)
  have hlisted : GoesOn ['[', '?', ',', '>', '\x7d']
      ((if d.isCollection then "[]".toList else []) ++
        ((if d.isNullable then "?".toList else []) ++ rest)) :=
    hmarked.cons '[' (by cases d.isCollection <;> simp)
  have hwithMembers := hlisted.cons '\x7b'
    (bracketed_eq_nil_or_cons '\x7b' '\x7d' (d.members.map memberText))
  have hwithArgs := hwithMembers.cons '<'
    (bracketed_eq_nil_or_cons '<' '>' (d.args.map fun a => a.render.toList))
  have htext : d.behindName ++ rest = bracketed '<' '>' (d.args.map fun a => a.render.toList) ++
      (bracketed '\x7b' '\x7d' (d.members.map memberText) ++
        ((if d.isCollection then "[]".toList else []) ++
          ((if d.isNullable then "?".toList else []) ++ rest))) := by
    simp only [behindName, List.append_assoc]
  rw [htext]
  exact ⟨_, _, _, readBracketed_append (.inl rfl) hargs (hwithMembers.forall (by decide)),
    readBracketed_append (.inr rfl) hmembers (hlisted.forall (by decide)),
    readCollectionMark_append d.isCollection (hmarked.forall (by decide)),
    readNullableMark_append d.isNullable (hrest.forall (by decide)), hwithArgs⟩

/-- A well-formed descriptor is read back from its text, whatever stands behind it. -/
theorem WellFormed.readsBack {d : Descriptor} (h : WellFormed d) {fuel : Nat}
    (hfuel : d.render.toList.length ≤ fuel) : ReadsBack (readParts fuel) d.render.toList d := by
  induction h generalizing fuel with
  | @intro d hname hspace hargs hmemberNames hmembers ihargs ihmembers =>
    obtain ⟨first, names, hfirst, hnames, hofPath, hpath⟩ := exists_path hname hspace
    rw [toList_render, hpath] at hfuel
    obtain ⟨c, cs, hc, -⟩ := hfirst.exists_cons
    simp only [behindName, List.length_append, hc, List.length_cons] at hfuel
    obtain ⟨fuel, rfl⟩ := Nat.exists_eq_add_one.mpr (show 0 < fuel by omega)
    have hargsBack : ∀ a ∈ d.args, ReadsBack (readParts fuel) a.render.toList a ∧
        Starts a.render.toList := fun a ha => by
      have := length_lt_bracketed '<' '>'
        (List.mem_map_of_mem (f := fun a : Descriptor => a.render.toList) ha)
      exact ⟨ihargs a ha (by omega), (hargs a ha).starts⟩
    have hmembersBack : ∀ m ∈ d.members, ReadsBack (readMember (readParts fuel)) (memberText m) m ∧
        Starts (memberText m) := fun m hm => by
      have := length_lt_bracketed '\x7b' '\x7d'
        (List.mem_map_of_mem (f := memberText) hm)
      have htype : m.2.render.toList.length ≤ fuel := by
        simp only [memberText, List.length_append, List.length_cons] at this
        omega
      exact ⟨readMember_append (hmemberNames m hm) (hmembers m hm).starts (ihmembers m hm htype),
        (hmemberNames m hm).starts.append _⟩
    intro rest hrest
    obtain ⟨withMembers, listed, marked, hreadArgs, hreadMembers, hreadCollection, hreadNullable,
      hbehind⟩ := exists_reads_behindName hargsBack hmembersBack hrest
    have hdotted : GoesOn ['.', '<', '\x7b', '[', '?', ',', '>', '\x7d']
        (dotted names ++ (d.behindName ++ rest)) :=
      hbehind.cons '.' (by cases names <;> simp [dotted])
    have htext : d.render.toList ++ rest = (if d.isEnum then "enum ".toList else []) ++
        (first.toList ++ (dotted names ++ (d.behindName ++ rest))) := by
      simp only [toList_render, hpath, List.append_assoc]
    have hreadEnum := readEnumMark_append d.isEnum hfirst (hdotted.forall (by decide))
    have hreadFirst := readName_append hfirst (hdotted.forall (by decide))
    have hcount : names.length ≤ (dotted names ++ (d.behindName ++ rest)).length :=
      Nat.le_trans (length_le_dotted names) (by simp)
    have hreadNames := readPath_append hnames (hbehind.forall (by decide)) hcount
    rw [htext, readParts]
    simp only [hreadEnum, hreadFirst, hreadNames, hofPath, hreadArgs, hreadMembers,
      hreadCollection, hreadNullable]
    obtain ⟨name, space, args, isCollection, isEnum, isNullable, members⟩ := d
    rfl

/-- What is read as a descriptor is well-formed. -/
theorem wellFormed_of_readParts {fuel : Nat} {cs rest : List Char} {d : Descriptor}
    (h : readParts fuel cs = some (d, rest)) : WellFormed d := by
  induction fuel generalizing cs d rest with
  | zero => cases h
  | succ fuel ih =>
    have hparts : ∀ cs d rest, readParts fuel cs = some (d, rest) → WellFormed d :=
      fun _ _ _ => ih
    simp only [readParts] at h
    split at h
    · cases h
    · rename_i first cs' hfirst
      cases h
      obtain ⟨hname, hspace⟩ := ofPath_isName (isName_of_readName hfirst)
        (fun n hn => isName_of_mem_readPath hn)
      exact .intro hname hspace (forall_of_mem_readBracketed hparts _)
        (fun m hm => (forall_of_mem_readBracketed (forall_of_readMember hparts) _ m hm).1)
        (fun m hm => (forall_of_mem_readBracketed (forall_of_readMember hparts) _ m hm).2)

/-! ## Whole texts -/

/-- Nothing is removed from a text without white space at its ends. -/
theorem trim_eq_self {s : String} (hfirst : ∀ c ∈ s.toList.head?, Text.isBlank c = false)
    (hlast : ∀ c ∈ s.toList.getLast?, Text.isBlank c = false) : Text.trim s = s := by
  have keep : ∀ cs : List Char, (∀ c ∈ cs.head?, Text.isBlank c = false) →
      cs.dropWhile Text.isBlank = cs := by
    intro cs hcs
    cases cs with
    | nil => rfl
    | cons c rest => simp [hcs c rfl]
  rw [Text.trim, Text.trimStart, Text.trimEnd, keep _ hfirst, keep, List.reverse_reverse,
    String.ofList_toList]
  rwa [List.head?_reverse]

/-- A text does not end in white space when its two parts do not. -/
theorem not_blank_getLast?_append {a b : List Char}
    (ha : ∀ c ∈ a.getLast?, Text.isBlank c = false)
    (hb : ∀ c ∈ b.getLast?, Text.isBlank c = false) :
    ∀ c ∈ (a ++ b).getLast?, Text.isBlank c = false := by
  intro c hc
  rw [List.getLast?_append] at hc
  rcases Option.or_eq_some_iff.mp hc with hc | ⟨-, hc⟩
  · exact hb c hc
  · exact ha c hc

/-- Brackets do not end in white space. -/
theorem not_blank_getLast?_bracketed {left right : Char} (hright : Closes right)
    (texts : List (List Char)) :
    ∀ c ∈ (bracketed left right texts).getLast?, Text.isBlank c = false := by
  cases texts with
  | nil => simp [bracketed]
  | cons t rest =>
    intro c hc
    rw [bracketed, List.isEmpty_cons, if_neg Bool.false_ne_true, ← List.cons_append,
      List.getLast?_concat] at hc
    cases hc
    rcases hright with rfl | rfl <;> decide

/-- What stands behind a name does not end in white space. -/
theorem not_blank_getLast?_behindName (d : Descriptor) :
    ∀ c ∈ d.behindName.getLast?, Text.isBlank c = false := by
  refine not_blank_getLast?_append (not_blank_getLast?_bracketed (.inl rfl) _) <|
    not_blank_getLast?_append (not_blank_getLast?_bracketed (.inr rfl) _) <|
      not_blank_getLast?_append ?_ ?_
  · cases d.isCollection with
    | true => rintro c ⟨⟩; decide
    | false => rintro c ⟨⟩
  · cases d.isNullable with
    | true => rintro c ⟨⟩; decide
    | false => rintro c ⟨⟩

/-- A path of names holds no white space. -/
theorem not_blank_of_mem_path {first : String} {names : List String} (hfirst : IsName first)
    (hnames : ∀ n ∈ names, IsName n) {c : Char} (hc : c ∈ first.toList ++ dotted names) :
    Text.isBlank c = false := by
  rcases List.mem_append.mp hc with hc | hc
  · exact isBlank_of_isNameChar (hfirst.2 c hc)
  · obtain ⟨n, hn, hc⟩ := List.mem_flatMap.mp hc
    rcases List.mem_cons.mp hc with rfl | hc
    · decide
    · exact isBlank_of_isNameChar ((hnames n hn).2 c hc)

/-- The text of a well-formed descriptor has no white space at its ends. -/
theorem WellFormed.trim_render {d : Descriptor} (h : WellFormed d) :
    Text.trim d.render = d.render := by
  obtain ⟨hname, hspace, -, -, -⟩ := h
  obtain ⟨first, names, hfirst, hnames, -, hpath⟩ := exists_path hname hspace
  obtain ⟨a, as, has, -⟩ := hfirst.exists_cons
  have hsolid : ∀ c ∈ first.toList ++ dotted names, Text.isBlank c = false :=
    fun c => not_blank_of_mem_path hfirst hnames
  have hne : d.qualifiedName.toList ++ d.behindName ≠ [] := by simp [hpath, has]
  apply trim_eq_self
  · rw [toList_render]
    cases d.isEnum with
    | true => rintro c ⟨⟩; decide
    | false =>
      rw [hpath, has]
      rintro c ⟨⟩
      exact hsolid _ (by simp [has])
  · rw [toList_render, List.getLast?_append, Option.or_of_isSome (List.getLast?_isSome.mpr hne),
      hpath]
    exact not_blank_getLast?_append (fun c hc => hsolid c (List.mem_of_getLast? hc))
      (not_blank_getLast?_behindName d)

/-- Reading undoes writing on well-formed descriptors, and only well-formed ones are read. -/
theorem read_render_faithful :
    (∀ d, WellFormed d → read d.render = .ok d) ∧
    (∀ s d, read s = .ok d → WellFormed d) ∧
    (∀ s d, read s = .ok d → read d.render = .ok d) ∧
    (∀ d e, WellFormed d → WellFormed e → d.render = e.render → d = e) := by
  have hback : ∀ d, WellFormed d → read d.render = .ok d := by
    intro d h
    have hread := h.readsBack (Nat.le_succ _) [] (by rintro c ⟨⟩)
    rw [List.append_nil] at hread
    simp only [read, h.trim_render, hread]
  have hwell : ∀ s d, read s = .ok d → WellFormed d := by
    intro s d h
    simp only [read] at h
    split at h
    · rename_i hread
      cases h
      exact wellFormed_of_readParts hread
    · cases h
    · cases h
  refine ⟨hback, hwell, fun s d h => hback d (hwell s d h), fun d e hd he h => ?_⟩
  have := hback d hd
  rw [h, hback e he] at this
  cases this
  rfl

/-- A projection with an enumeration is well-formed and read back, and so is what a text with other
gaps reads as. -/
theorem read_render_projection :
    WellFormed (anonymous [("name", core "String"),
      ("color", (plain (some "shop.paint") "Color").enumeration.nullable)]) ∧
    read (anonymous [("name", core "String"),
        ("color", (plain (some "shop.paint") "Color").enumeration.nullable)]).render =
      .ok (anonymous [("name", core "String"),
        ("color", (plain (some "shop.paint") "Color").enumeration.nullable)]) ∧
    read "core.Grouping<core.Int64 ,enum  shop.Color>[]" =
      .ok (grouping (core "Int64") (plain (some "shop") "Color").enumeration) ∧
    read (grouping (core "Int64") (plain (some "shop") "Color").enumeration).render =
      .ok (grouping (core "Int64") (plain (some "shop") "Color").enumeration) := by
  have htext : read "core.Anonymous\x7bname: core.String, color: enum shop.paint.Color?\x7d" =
      .ok (anonymous [("name", core "String"),
        ("color", (plain (some "shop.paint") "Color").enumeration.nullable)]) := by rfl
  have hgaps : read "core.Grouping<core.Int64 ,enum  shop.Color>[]" =
      .ok (grouping (core "Int64") (plain (some "shop") "Color").enumeration) := by rfl
  have hwell := read_render_faithful.2.1 _ _ htext
  exact ⟨hwell, read_render_faithful.1 _ hwell, hgaps, read_render_faithful.2.2.1 _ _ hgaps⟩

end QueryRelay.Descriptor
