import Flowchart.Proofs.Value.Escape

/-!
# Written values are read back

A value made of strings, lists and records is read back from its document with the pairs in its
strings made characters (`ofDocument?_document`), so a value made of texts is read back as it is.
The document holds nothing but characters that can be typed (`allTyped_writeAt`).

A value is followed by what comes after it in the document, so it is read back in front of any rest
(`readValue_writeAt`). The induction is on how the value is made; the items of a list and the
fields of a record are an induction of their own inside of it. The reader counts its calls: what
is written is always longer than they nest, so the length is fuel enough.
-/

set_option autoImplicit false

namespace Flowchart.Value

open Text

/-- A value that is made of strings, lists and records. -/
inductive IsVerbal : Value → Prop where
  | string (s : RawText) : IsVerbal (ofRaw s)
  | list {items : List Value} (h : ∀ v ∈ items, IsVerbal v) : IsVerbal (.list items)
  | record {fields : List (Text × Value)} (h : ∀ entry ∈ fields, IsVerbal entry.2) :
      IsVerbal (.record fields)

/-! ## Pairs in strings -/

mutual

/-- The value with the pairs in its strings made characters. -/
def joined : Value → Value
  | .null => .null
  | .bool b => .bool b
  | .int n => .int n
  | .real literal => .real literal
  | .text t => .text t
  | .broken s => ofRaw s.points.joined
  | .list items => .list (joinedItems items)
  | .record fields => .record (joinedFields fields)

/-- The items of a list with their pairs made characters. -/
def joinedItems : List Value → List Value
  | [] => []
  | v :: vs => joined v :: joinedItems vs

/-- The fields of a record with their pairs made characters. -/
def joinedFields : List (Text × Value) → List (Text × Value)
  | [] => []
  | (name, v) :: more => (name, joined v) :: joinedFields more

end

theorem joined_ofRaw (s : RawText) : (ofRaw s).joined = ofRaw s.joined := by
  by_cases hwhole : s.isWhole = true
  · obtain ⟨t, rfl⟩ : ∃ t, s = .ofText t := ⟨s.chars, (RawText.ofText_chars hwhole).symm⟩
    rw [ofRaw_ofText, RawText.joined_ofText, ofRaw_ofText, joined]
  · have hbroken : ofRaw s = .broken ⟨s, Bool.eq_false_iff.mpr hwhole⟩ := dif_neg hwhole
    rw [hbroken, joined]

theorem joinedItems_eq_map (vs : List Value) : joinedItems vs = vs.map joined := by
  induction vs with
  | nil => rfl
  | cons v vs ih => rw [joinedItems, ih, List.map_cons]

theorem writeAt_ofRaw (depth : Nat) (s : RawText) : writeAt depth (ofRaw s) = writeRaw s := by
  by_cases hwhole : s.isWhole = true
  · obtain ⟨t, rfl⟩ : ∃ t, s = .ofText t := ⟨s.chars, (RawText.ofText_chars hwhole).symm⟩
    rw [ofRaw_ofText, writeAt, writeRaw_ofText]
  · have hbroken : ofRaw s = .broken ⟨s, Bool.eq_false_iff.mpr hwhole⟩ := dif_neg hwhole
    rw [hbroken, writeAt]

/-! ## Breaks -/

theorem skipSpacing_breakAt (depth : Nat) (t : Text) :
    skipSpacing (breakAt depth ++ t) = skipSpacing t := by
  have hbreak : ∀ c ∈ breakAt depth, isSpacing c = true := by
    intro c hc
    rcases List.mem_cons.mp hc with rfl | hc
    · rfl
    · rw [List.eq_of_mem_replicate hc]
      rfl
  exact List.dropWhile_append_of_pos hbreak

theorem skipSpacing_cons {c : Char} (h : isSpacing c = false) (t : Text) :
    skipSpacing (c :: t) = c :: t :=
  List.dropWhile_cons_of_neg (by simp [h])

/-- A written value begins with a mark of its own. -/
theorem exists_writeAt {v : Value} (h : v.IsVerbal) (depth : Nat) :
    ∃ c t, writeAt depth v = c :: t ∧ isSpacing c = false ∧ c ≠ ']' := by
  cases h with
  | string s =>
      rw [writeAt_ofRaw]
      exact ⟨'"', _, rfl, by decide⟩
  | @list items h =>
      cases items with
      | nil => exact ⟨'[', _, rfl, by decide⟩
      | cons v vs => exact ⟨'[', _, rfl, by decide⟩
  | @record fields h =>
      cases fields with
      | nil => exact ⟨'{', _, rfl, by decide⟩
      | cons entry more => exact ⟨'{', _, rfl, by decide⟩

/-- Spacing before a written value is passed over. -/
theorem skipSpacing_writeAt {v : Value} (h : v.IsVerbal) (depth : Nat) (t : Text) :
    skipSpacing (writeAt depth v ++ t) = writeAt depth v ++ t := by
  obtain ⟨c, u, hwrite, hspacing, -⟩ := exists_writeAt h depth
  rw [hwrite]
  exact skipSpacing_cons hspacing (u ++ t)

/-! ## Reading -/

/-- A value is read back, but for its pairs, wherever it stands in a document. -/
def ReadsBack (v : Value) : Prop :=
  ∀ (depth fuel : Nat) (rest : Text), (writeAt depth v).length < fuel →
    readValue fuel (writeAt depth v ++ rest) = some (v.joined, rest)

theorem readsBack_string (s : RawText) : ReadsBack (ofRaw s) := by
  intro depth fuel rest hfuel
  obtain ⟨fuel, rfl⟩ := Nat.exists_eq_add_one_of_ne_zero (by omega : fuel ≠ 0)
  have hwrite : writeAt depth (ofRaw s) ++ rest =
      '"' :: (s.flatMap escapePoint ++ '"' :: rest) := by
    simp [writeAt_ofRaw, writeRaw]
  rw [hwrite, readValue, if_pos rfl, readString_escapePoints, joined_ofRaw]
  rfl

/-- Items are read up to the closing bracket. -/
theorem readItems_writeItems {vs : List Value} (hverbal : ∀ w ∈ vs, IsVerbal w)
    (hback : ∀ w ∈ vs, ReadsBack w) {v : Value} (hv : ReadsBack v) (depth level : Nat)
    (rest : Text) {fuel : Nat}
    (hfuel : (writeAt depth v ++ writeItems depth vs).length + 1 < fuel) :
    readItems fuel (writeAt depth v ++ (writeItems depth vs ++ (breakAt level ++ ']' :: rest))) =
      some (joinedItems (v :: vs), rest) := by
  induction vs generalizing v fuel with
  | nil =>
      obtain ⟨fuel, rfl⟩ := Nat.exists_eq_add_one_of_ne_zero (by omega : fuel ≠ 0)
      rw [List.length_append] at hfuel
      rw [readItems, hv depth fuel _ (by omega), writeItems, List.nil_append]
      simp only [skipSpacing_breakAt, skipSpacing_cons (by decide : isSpacing ']' = false)]
      rfl
  | cons w vs ih =>
      obtain ⟨fuel, rfl⟩ := Nat.exists_eq_add_one_of_ne_zero (by omega : fuel ≠ 0)
      have hwrite : ∀ t, writeItems depth (w :: vs) ++ t =
          ',' :: (breakAt depth ++ (writeAt depth w ++ (writeItems depth vs ++ t))) := by
        intro t
        simp only [writeItems, List.append_assoc, List.cons_append]
      have hlength := congrArg List.length (hwrite [])
      simp only [List.length_append, List.length_cons, List.append_nil] at hlength hfuel
      have hmore := ih (fun x hx => hverbal x (List.mem_cons_of_mem _ hx))
        (fun x hx => hback x (List.mem_cons_of_mem _ hx)) (hback w List.mem_cons_self)
        (by rw [List.length_append]; omega : _ < fuel)
      rw [readItems, hv depth fuel _ (by omega), hwrite]
      simp only [skipSpacing_cons (by decide : isSpacing ',' = false), skipSpacing_breakAt,
        skipSpacing_writeAt (hverbal w List.mem_cons_self), hmore]
      rfl

theorem readValue_list {t : Text} (h : (skipSpacing t).head? ≠ some ']') (fuel : Nat) :
    readValue (fuel + 1) ('[' :: t) =
      (readItems fuel (skipSpacing t)).map fun (items, rest) => (.list items, rest) := by
  rw [readValue, if_neg (by decide), if_pos rfl]
  split
  · rename_i u heq
    exact absurd (by rw [heq]; rfl) h
  · rfl

theorem readsBack_list {items : List Value} (hverbal : ∀ v ∈ items, IsVerbal v)
    (hback : ∀ v ∈ items, ReadsBack v) : ReadsBack (.list items) := by
  intro depth fuel rest hfuel
  obtain ⟨fuel, rfl⟩ := Nat.exists_eq_add_one_of_ne_zero (by omega : fuel ≠ 0)
  cases items with
  | nil => rfl
  | cons v vs =>
      have hv := hverbal v List.mem_cons_self
      have hwrite : ∀ t, writeAt depth (.list (v :: vs)) ++ t =
          '[' :: (breakAt (depth + 1) ++ (writeAt (depth + 1) v ++ (writeItems (depth + 1) vs ++
            (breakAt depth ++ ']' :: t)))) := by
        intro t
        simp only [writeAt, List.append_assoc, List.cons_append, List.nil_append]
      have hlength := congrArg List.length (hwrite [])
      simp only [List.length_append, List.length_cons, List.append_nil] at hlength
      have hitems := @readItems_writeItems vs (fun w hw => hverbal w (List.mem_cons_of_mem _ hw))
        (fun w hw => hback w (List.mem_cons_of_mem _ hw)) v (hback v List.mem_cons_self) (depth + 1)
        depth rest fuel (by rw [List.length_append]; omega)
      have hskip : ∀ t, skipSpacing (breakAt (depth + 1) ++ (writeAt (depth + 1) v ++ t)) =
          writeAt (depth + 1) v ++ t := by
        intro t
        rw [skipSpacing_breakAt, skipSpacing_writeAt hv]
      rw [hwrite, readValue_list, hskip, hitems]
      · rfl
      · obtain ⟨c, u, hcons, -, hbracket⟩ := exists_writeAt hv (depth + 1)
        rw [hskip, hcons]
        exact fun hhead => hbracket (Option.some.inj hhead)

section Field

variable {name : Text} {v : Value} {depth fuel : Nat} {t rest : Text}

theorem writeText_field (name : Text) (v : Value) (depth : Nat) (t : Text) :
    writeText name ++ (": ".toList ++ (writeAt depth v ++ t)) =
      '"' :: (name.flatMap escapeChar ++ '"' :: ':' :: ' ' :: (writeAt depth v ++ t)) := by
  simp [writeText]

/-- A field with the closing brace behind it. -/
theorem readFields_last (hverbal : IsVerbal v)
    (hv : readValue fuel (writeAt depth v ++ t) = some (v.joined, t))
    (hclose : skipSpacing t = '}' :: rest) :
    readFields (fuel + 1) (writeText name ++ (": ".toList ++ (writeAt depth v ++ t))) =
      some ([(name, v.joined)], rest) := by
  have hspace : skipSpacing (' ' :: (writeAt depth v ++ t)) = writeAt depth v ++ t :=
    skipSpacing_writeAt hverbal depth t
  rw [writeText_field, readFields, readString_writeText]
  simp only [RawText.filled_ofText, skipSpacing_cons (by decide : isSpacing ':' = false), hspace,
    hv, hclose]

/-- A field with a comma behind it. -/
theorem readFields_next (hverbal : IsVerbal v)
    (hv : readValue fuel (writeAt depth v ++ t) = some (v.joined, t))
    (hcomma : skipSpacing t = ',' :: rest) :
    readFields (fuel + 1) (writeText name ++ (": ".toList ++ (writeAt depth v ++ t))) =
      (readFields fuel (skipSpacing rest)).map fun (fields, rest) =>
        ((name, v.joined) :: fields, rest) := by
  have hspace : skipSpacing (' ' :: (writeAt depth v ++ t)) = writeAt depth v ++ t :=
    skipSpacing_writeAt hverbal depth t
  rw [writeText_field, readFields, readString_writeText]
  simp only [RawText.filled_ofText, skipSpacing_cons (by decide : isSpacing ':' = false), hspace,
    hv, hcomma]

end Field

/-- Fields are read up to the closing brace. -/
theorem readFields_writeFields {more : List (Text × Value)} (hverbal : ∀ e ∈ more, IsVerbal e.2)
    (hback : ∀ e ∈ more, ReadsBack e.2) (name : Text) {v : Value} (hv : IsVerbal v)
    (hvback : ReadsBack v) (depth level : Nat) (rest : Text) {fuel : Nat}
    (hfuel : (writeAt depth v ++ writeFields depth more).length + 1 < fuel) :
    readFields fuel (writeText name ++ (": ".toList ++ (writeAt depth v ++
      (writeFields depth more ++ (breakAt level ++ '}' :: rest))))) =
        some (joinedFields ((name, v) :: more), rest) := by
  induction more generalizing name v fuel with
  | nil =>
      obtain ⟨fuel, rfl⟩ := Nat.exists_eq_add_one_of_ne_zero (by omega : fuel ≠ 0)
      rw [List.length_append] at hfuel
      refine readFields_last hv (hvback depth fuel _ (by omega)) ?_
      rw [writeFields, List.nil_append, skipSpacing_breakAt, skipSpacing_cons (by decide)]
  | cons entry more ih =>
      obtain ⟨other, w⟩ := entry
      obtain ⟨fuel, rfl⟩ := Nat.exists_eq_add_one_of_ne_zero (by omega : fuel ≠ 0)
      have hwrite : ∀ t, writeFields depth ((other, w) :: more) ++ t =
          ',' :: (breakAt depth ++ (writeText other ++ (": ".toList ++ (writeAt depth w ++
            (writeFields depth more ++ t))))) := by
        intro t
        simp only [writeFields, List.append_assoc, List.cons_append]
      have hlength := congrArg List.length (hwrite [])
      simp only [List.length_append, List.length_cons, List.append_nil] at hlength hfuel
      have hw : IsVerbal w := hverbal (other, w) List.mem_cons_self
      have hwback : ReadsBack w := hback (other, w) List.mem_cons_self
      have hmore := ih (fun e he => hverbal e (List.mem_cons_of_mem _ he))
        (fun e he => hback e (List.mem_cons_of_mem _ he)) other hw hwback
        (by rw [List.length_append]; omega : _ < fuel)
      have hname : ∀ t, skipSpacing (writeText other ++ t) = writeText other ++ t :=
        fun t => skipSpacing_cons (by decide) _
      have hcomma : ∀ t, skipSpacing (',' :: t) = ',' :: t :=
        fun t => skipSpacing_cons (by decide) t
      rw [hwrite, readFields_next hv (hvback depth fuel _ (by omega)) (hcomma _),
        skipSpacing_breakAt, hname, hmore]
      rfl

theorem readValue_record {t : Text} (h : (skipSpacing t).head? ≠ some '}') (fuel : Nat) :
    readValue (fuel + 1) ('{' :: t) =
      (readFields fuel (skipSpacing t)).map fun (fields, rest) => (.record fields, rest) := by
  rw [readValue, if_neg (by decide), if_neg (by decide), if_pos rfl]
  split
  · rename_i u heq
    exact absurd (by rw [heq]; rfl) h
  · rfl

theorem readsBack_record {fields : List (Text × Value)} (hverbal : ∀ e ∈ fields, IsVerbal e.2)
    (hback : ∀ e ∈ fields, ReadsBack e.2) : ReadsBack (.record fields) := by
  intro depth fuel rest hfuel
  obtain ⟨fuel, rfl⟩ := Nat.exists_eq_add_one_of_ne_zero (by omega : fuel ≠ 0)
  cases fields with
  | nil => rfl
  | cons entry more =>
      obtain ⟨name, v⟩ := entry
      have hwrite : ∀ t, writeAt depth (.record ((name, v) :: more)) ++ t =
          '{' :: (breakAt (depth + 1) ++ (writeText name ++ (": ".toList ++
            (writeAt (depth + 1) v ++ (writeFields (depth + 1) more ++
              (breakAt depth ++ '}' :: t)))))) := by
        intro t
        simp only [writeAt, List.append_assoc, List.cons_append, List.nil_append]
      have hlength := congrArg List.length (hwrite [])
      simp only [List.length_append, List.length_cons, List.append_nil] at hlength
      have hfields := @readFields_writeFields more
        (fun e he => hverbal e (List.mem_cons_of_mem _ he))
        (fun e he => hback e (List.mem_cons_of_mem _ he)) name v (hverbal _ List.mem_cons_self)
        (hback _ List.mem_cons_self) (depth + 1) depth rest fuel
        (by rw [List.length_append]; omega)
      have hskip : ∀ t, skipSpacing (breakAt (depth + 1) ++ (writeText name ++ t)) =
          writeText name ++ t := by
        intro t
        rw [skipSpacing_breakAt]
        exact skipSpacing_cons (by decide) _
      rw [hwrite, readValue_record, hskip, hfields]
      · rfl
      · rw [hskip]
        exact fun hhead => absurd (Option.some.inj hhead) (by decide)

theorem readValue_writeAt {v : Value} (h : v.IsVerbal) : ReadsBack v := by
  induction h with
  | string s => exact readsBack_string s
  | list h ih => exact readsBack_list h ih
  | record h ih => exact readsBack_record h ih

/-- A value is read back from its document, but for its pairs. -/
theorem ofDocument?_document {v : Value} (h : v.IsVerbal) :
    ofDocument? v.document = some v.joined := by
  have hread := readValue_writeAt h 0 (2 * v.document.length + 2) [] (by rw [document]; omega)
  have hskip := skipSpacing_writeAt h 0 []
  rw [List.append_nil, ← document] at hread hskip
  rw [ofDocument?, hskip, hread]
  rfl

/-! ## The characters of a document -/

theorem allTyped_breakAt (depth : Nat) : AllTyped (breakAt depth) := by
  have hfeed : IsTyped '\n' := by decide
  refine .cons hfeed ?_
  intro c hc
  rw [List.eq_of_mem_replicate hc]
  decide

/-- A mark and the break behind it. -/
theorem allTyped_markBreak {mark : Char} (h : IsTyped mark) (depth : Nat) :
    AllTyped (mark :: breakAt depth) :=
  .cons h (allTyped_breakAt depth)

theorem allTyped_name (name : Text) : AllTyped (writeText name ++ ": ".toList) :=
  (allTyped_writeText name).append (by decide)

theorem allTyped_writeItems {vs : List Value} (depth : Nat)
    (h : ∀ v ∈ vs, AllTyped (writeAt depth v)) : AllTyped (writeItems depth vs) := by
  have hcomma : IsTyped ',' := by decide
  induction vs with
  | nil => exact allTyped_nil
  | cons v vs ih =>
      rw [List.forall_mem_cons] at h
      exact ((allTyped_markBreak hcomma depth).append h.1).append (ih h.2)

theorem allTyped_writeFields {fields : List (Text × Value)} (depth : Nat)
    (h : ∀ e ∈ fields, AllTyped (writeAt depth e.2)) : AllTyped (writeFields depth fields) := by
  have hcomma : IsTyped ',' := by decide
  induction fields with
  | nil => exact allTyped_nil
  | cons e fields ih =>
      rw [List.forall_mem_cons] at h
      have hname := (allTyped_markBreak hcomma depth).append (allTyped_name e.1)
      rw [← List.append_assoc] at hname
      exact (hname.append h.1).append (ih h.2)

/-- A document holds nothing but characters that can be typed. -/
theorem allTyped_writeAt {v : Value} (h : v.IsVerbal) (depth : Nat) :
    AllTyped (writeAt depth v) := by
  induction h generalizing depth with
  | string s =>
      rw [writeAt_ofRaw]
      exact allTyped_writeRaw s
  | @list items h ih =>
      cases items with
      | nil => exact (by decide : AllTyped "[]".toList)
      | cons v vs =>
          have hopen : IsTyped '[' := by decide
          have hfirst := (allTyped_markBreak hopen (depth + 1)).append
            (ih v List.mem_cons_self (depth + 1))
          have hitems := allTyped_writeItems (depth + 1)
            fun w hw => ih w (List.mem_cons_of_mem _ hw) (depth + 1)
          exact ((hfirst.append hitems).append (allTyped_breakAt depth)).append (by decide)
  | @record fields h ih =>
      cases fields with
      | nil => exact (by decide : AllTyped ['{', '}'])
      | cons e more =>
          have hopen : IsTyped '{' := by decide
          have hname := (allTyped_markBreak hopen (depth + 1)).append (allTyped_name e.1)
          rw [← List.append_assoc] at hname
          have hfields := allTyped_writeFields (depth + 1)
            fun f hf => ih f (List.mem_cons_of_mem _ hf) (depth + 1)
          exact (((hname.append (ih e List.mem_cons_self (depth + 1))).append hfields).append
            (allTyped_breakAt depth)).append (by decide)

end Flowchart.Value
