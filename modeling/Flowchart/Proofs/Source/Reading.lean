import Flowchart.Source.Reading

/-!
# One step of reading

Equations for the readers of statements and of alternatives: what they do with the next line is
done once, and the rest is read as it would be alone.
-/

set_option autoImplicit false

namespace Flowchart

/-! ## How a line begins -/

/-- What a line of a kind begins with. -/
def LineKind.Fits (line : Text) : LineKind → Prop
  | skipped => Source.isSkipped line = true
  | function => (Source.functionName? line).isSome
  | conditional => Source.opensGroup "if".toList line = true
  | loop => (Source.loopKeyword? line).isSome
  | «variable» => Source.opensVariable line = true
  | result => (Source.returned? line).isSome
  | plain => True

namespace Source

open Text

theorem lineKind_fits (line : Text) : (lineKind line).Fits line := by
  unfold lineKind
  split
  · assumption
  · split
    · assumption
    · split
      · assumption
      · split
        · assumption
        · split
          · assumption
          · split
            · assumption
            · trivial

section Kinds

variable {line : Text}

theorem exists_functionName? (h : lineKind line = .function) :
    ∃ name, functionName? line = some name := by
  have hfits := lineKind_fits line
  rw [h] at hfits
  exact Option.isSome_iff_exists.mp hfits

theorem opensGroup_of_conditional (h : lineKind line = .conditional) :
    opensGroup "if".toList line = true := by
  have hfits := lineKind_fits line
  rwa [h] at hfits

theorem exists_loopKeyword? (h : lineKind line = .loop) :
    ∃ keyword, loopKeyword? line = some keyword := by
  have hfits := lineKind_fits line
  rw [h] at hfits
  exact Option.isSome_iff_exists.mp hfits

theorem exists_returned? (h : lineKind line = .result) : ∃ value, returned? line = some value := by
  have hfits := lineKind_fits line
  rw [h] at hfits
  exact Option.isSome_iff_exists.mp hfits

end Kinds

/-- The keyword of a loop opens its header. It is a word, and holds no parenthesis. -/
theorem opensGroup_of_loopKeyword? {line keyword : Text} (h : loopKeyword? line = some keyword) :
    opensGroup keyword line = true ∧ isAllBlank keyword = false ∧ '(' ∉ keyword := by
  have hmem := List.mem_of_find?_eq_some h
  simp only [List.mem_cons, List.not_mem_nil, or_false] at hmem
  refine ⟨List.find?_some (p := (opensGroup · line)) h, ?_⟩
  rcases hmem with rfl | rfl
  · exact ⟨by decide, by decide⟩
  · exact ⟨by decide, by decide⟩

/-! ## Statements -/

theorem statements_nil : statements [] = [] := by
  rw [statements]

theorem statements_cons (line : Text) (below : List Text) :
    statements (line :: below) = (read line below).1.toList ++ statements (read line below).2 := by
  rw [statements]

theorem statements_of_read {line : Text} {below rest : List Text} {s : Statement}
    (h : read line below = (some s, rest)) :
    statements (line :: below) = s :: statements rest := by
  rw [statements_cons, h, Option.toList_some, List.singleton_append]

theorem statements_plain {line : Text} (h : lineKind line = .plain) :
    statements [line] = [.plain line line] := by
  have hread : read line [] = (some (.plain line line), []) := by
    rw [Source.read, h]
  rw [statements_of_read hread, statements_nil]

/-- A conditional is read from its first body and the alternatives behind it. -/
theorem read_conditional {line : Text} {below : List Text} (hkind : lineKind line = .conditional)
    {body : Body} (hbody : bodyAfter (parenGroup line).2 below = body) {others : Alternatives}
    (hothers : alternatives body.trailing body.rest = others) :
    read line below =
      (some (.conditional ⟨orPlaceholder (parenGroup line).1, body.lines⟩ others.arms
        others.elseBody line), others.rest) := by
  subst hbody hothers
  rw [Source.read, hkind]

theorem read_loop {line keyword : Text} {below : List Text} (hkind : lineKind line = .loop)
    (hkeyword : loopKeyword? line = some keyword) {body : Body}
    (hbody : bodyAfter (parenGroup line).2 below = body) :
    read line below = (some (.loop keyword (parenGroup line).1 body.lines line), body.rest) := by
  subst hbody
  rw [Source.read, hkind, hkeyword, Option.getD_some]

/-- The loop that is read is the one that its line opens. -/
theorem loopKeyword?_of_read {line keyword condition first : Text} {below body : List Text}
    (h : .loop keyword condition body first ∈ (read line below).1) :
    loopKeyword? line = some keyword := by
  cases hkind : lineKind line with
  | loop =>
      obtain ⟨word, hword⟩ := exists_loopKeyword? hkind
      rw [read_loop hkind hword rfl] at h
      cases h
      exact hword
  | skipped | function | conditional | «variable» | result | plain =>
      rw [Source.read, hkind] at h
      cases h

/-- Every statement of a list of lines has been read from one of them. -/
theorem exists_read_of_mem_statements {lines : List Text} {s : Statement}
    (h : s ∈ statements lines) : ∃ line below, s ∈ (read line below).1 := by
  fun_induction statements lines with
  | case1 => cases h
  | case2 line below _ ih =>
      rcases List.mem_append.mp h with h | h
      · exact ⟨line, below, Option.mem_toList.mp h⟩
      · exact ih h

/-! ## Alternatives -/

theorem elseAfter_of_ne {trailing : Text} (hne : trailing ≠ []) (lines : List Text) :
    elseAfter trailing lines = ((elseHeader? trailing).map strip, lines) := by
  unfold elseAfter
  exact if_neg (by simpa using hne)

theorem elseAfter_cons {line header : Text} (h : elseHeader? line = some header)
    (rest : List Text) : elseAfter [] (line :: rest) = (some (strip header), rest) := by
  unfold elseAfter
  rw [if_pos List.isEmpty_nil]
  simp only [h]

theorem elseHeader?_of_none {line : Text} (h : afterWord? "else".toList line = none) :
    elseHeader? line = none := by
  rw [elseHeader?, h, Option.bind_none]

/-- No `else` is found where the next line does not open with the word. -/
theorem elseAfter_of_head {rest : List Text}
    (h : ∀ line ∈ rest.head?, afterWord? "else".toList line = none) :
    elseAfter [] rest = (none, rest) := by
  unfold elseAfter
  rw [if_pos List.isEmpty_nil]
  cases rest with
  | nil => rfl
  | cons line rest =>
      simp only [elseHeader?_of_none (h line rfl)]

section Alternatives

variable {trailing header : Text} {lines rest : List Text}

theorem alternatives_eq (trailing : Text) (lines : List Text) :
    alternatives trailing lines =
      match elseAfter trailing lines with
      | (none, rest) => ⟨[], [], rest⟩
      | (some header, rest) =>
          if lineKind header = .conditional then
            let body := bodyAfter (parenGroup header).2 rest
            let others := alternatives body.trailing body.rest
            { others with arms := ⟨orPlaceholder (parenGroup header).1, body.lines⟩ :: others.arms }
          else
            let body := bodyAfter header rest
            ⟨[], body.lines, body.rest⟩ := by
  rw [alternatives]
  split
  · rename_i hnone
    simp only [hnone]
  · rename_i hsome
    simp only [hsome]

theorem alternatives_of_none (h : elseAfter trailing lines = (none, rest)) :
    alternatives trailing lines = ⟨[], [], rest⟩ := by
  rw [alternatives_eq, h]

/-- Behind an `else` that opens a conditional, the alternatives go on. -/
theorem alternatives_of_arm (h : elseAfter trailing lines = (some header, rest))
    (hkind : lineKind header = .conditional) {body : Body}
    (hbody : bodyAfter (parenGroup header).2 rest = body) :
    alternatives trailing lines =
      { alternatives body.trailing body.rest with
        arms := ⟨orPlaceholder (parenGroup header).1, body.lines⟩ ::
          (alternatives body.trailing body.rest).arms } := by
  rw [alternatives_eq, h, ← hbody]
  simp only [if_pos hkind]

/-- Any other `else` is the last. -/
theorem alternatives_of_last (h : elseAfter trailing lines = (some header, rest))
    (hkind : lineKind header ≠ .conditional) {body : Body}
    (hbody : bodyAfter header rest = body) :
    alternatives trailing lines = ⟨[], body.lines, body.rest⟩ := by
  rw [alternatives_eq, h, ← hbody]
  simp only [if_neg hkind]

/-- The alternatives depend on the `else` that is found and on what is left behind it. -/
theorem alternatives_congr {trailing' : Text} {lines' : List Text}
    (h : elseAfter trailing lines = elseAfter trailing' lines') :
    alternatives trailing lines = alternatives trailing' lines' := by
  rw [alternatives_eq, alternatives_eq, h]

end Alternatives

/-! ## Bodies -/

/-- A block ends at the first line that begins with a closing brace. -/
theorem blockLines_append {body : List Text}
    (hbody : ∀ line ∈ body, line ≠ [] ∧ startsWith ['}'] line = false) (behind : Text)
    (rest : List Text) :
    blockLines (body ++ ('}' :: behind) :: rest) = ⟨body, strip behind, rest⟩ := by
  induction body with
  | nil => rfl
  | cons line body ih =>
      obtain ⟨hne, hstart⟩ := hbody line List.mem_cons_self
      have hafter : after? ['}'] line = none := by
        simpa [startsWith] using hstart
      have hempty : line.isEmpty = false := by simpa using hne
      rw [List.cons_append, blockLines, hafter]
      simp [hempty, ih fun other hother => hbody other (List.mem_cons_of_mem _ hother)]

end Source

end Flowchart
