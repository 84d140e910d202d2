import Flowchart.Settings.EnvFile
import Mathlib.Data.List.Nodup

/-!
# Loading leaves what is set

Loading a settings file only adds variables: those that are set keep their texts, and a variable
that is not set is set if the file binds it to a text last. Main statement:
`Settings.loading_leavesSet`, which also says that settings whose variables were set do not depend
on what is loaded, and that loading once more changes nothing.

Of the library that loads settings files only what its documents say is used
(`EnvLoader.Documented`). It does not say which text a variable gets, and that may be another one
each time, since a text may mention variables. But which names are set for a file depends on the
variables only in so far as they are set (`EnvLoader.Documented.mem_assignments`): whatever a second
loading would set, the first one has set. `EnvFile.documented_loader` says that the loader of the
program is such a library.
-/

set_option autoImplicit false

namespace Flowchart

open Text

/-! ## Variables -/

namespace Variables

theorem get?_put (vars : Variables) (name text other : Text) :
    (vars.put name text).get? other = if other = name then some text else vars.get? other := by
  by_cases hother : other = name
  · subst hother
    simp [get?, put]
  · have hfilter :
        (vars.filter fun entry => entry.1 != name).find? (fun entry => entry.1 == other) =
          vars.find? fun entry => entry.1 == other := by
      rw [List.find?_filter]
      congr
      funext entry
      by_cases hentry : entry.1 = other
      · simp [hentry, hother]
      · simp [hentry]
    rw [if_neg hother, get?, get?, put, List.find?_cons_of_neg (by simpa using Ne.symm hother),
      hfilter]

theorem get?_assign {vars after : Variables} {name text : Text}
    (h : vars.assign name text = .ok after) (other : Text) :
    after.get? other = if other = name then some text else vars.get? other := by
  have hput : after = vars.put name text := by
    unfold assign at h
    split at h
    · cases h
    · split at h
      · cases h
      · split at h
        · cases h
        · exact (Except.ok.inj h).symm
  rw [hput, get?_put]

end Variables

namespace Settings

/-! ## Setting variables in order -/

/-- A variable that is not among those that are set keeps its text, also when the setting stops. -/
theorem get?_assignAll_of_not_mem {vars : Variables} {entries : List (Text × Text)} {name : Text}
    (h : name ∉ entries.map (·.1)) : (assignAll vars entries).vars.get? name = vars.get? name := by
  induction entries generalizing vars with
  | nil => rfl
  | cons entry more ih =>
      obtain ⟨first, text⟩ := entry
      rw [List.map_cons, List.mem_cons, not_or] at h
      unfold assignAll
      cases hassign : vars.assign first text with
      | error fault => rfl
      | ok after =>
          show (assignAll after more).vars.get? name = vars.get? name
          rw [ih h.2, Variables.get?_assign hassign, if_neg h.1]

/-- What is set stays set. -/
theorem isSome_get?_assignAll {vars : Variables} (entries : List (Text × Text)) {name : Text}
    (h : (vars.get? name).isSome) : ((assignAll vars entries).vars.get? name).isSome := by
  induction entries generalizing vars with
  | nil => exact h
  | cons entry more ih =>
      obtain ⟨first, text⟩ := entry
      unfold assignAll
      cases hassign : vars.assign first text with
      | error fault => exact h
      | ok after =>
          refine ih ?_
          rw [Variables.get?_assign hassign]
          split
          · rfl
          · exact h

/-- Setting that does not stop sets every variable that it is told to. -/
theorem isSome_get?_assignAll_of_mem {vars : Variables} {entries : List (Text × Text)}
    (h : (assignAll vars entries).fault = none) {name text : Text} (hmem : (name, text) ∈ entries) :
    ((assignAll vars entries).vars.get? name).isSome := by
  induction entries generalizing vars with
  | nil => cases hmem
  | cons entry more ih =>
      obtain ⟨first, new⟩ := entry
      unfold assignAll at h ⊢
      cases hassign : vars.assign first new with
      | error fault =>
          rw [hassign] at h
          cases h
      | ok after =>
          rw [hassign] at h
          rcases List.mem_cons.mp hmem with heq | hmore
          · obtain ⟨rfl, rfl⟩ := Prod.mk.inj heq
            refine isSome_get?_assignAll more ?_
            rw [Variables.get?_assign hassign, if_pos rfl]
            rfl
          · exact ih h hmore

end Settings

/-! ## What is documented of the library -/

namespace EnvLoader

/-- What the last binding of a name binds it to, if the name is bound. -/
def lastBinding? (name : Text) (bs : List Binding) : Option (Option Text) := bs.reverse.lookup name

/-- What is documented of the library that loads settings files. Nothing is said about the texts
that mentions of variables are replaced by. -/
structure Documented (loader : EnvLoader) : Prop where
  /-- Variables that are set are not overridden. -/
  overrideOff : ∀ vars bs name text, (name, text) ∈ loader.assignments vars bs →
    vars.get? name = none
  /-- Only a name that the file binds is set, and a name that stands alone where it is bound last is
  not. -/
  bareKey : ∀ vars bs name text, (name, text) ∈ loader.assignments vars bs →
    ∃ written, lastBinding? name bs = some (some written)
  /-- A name that is bound to a text last is set, if it is not set already. -/
  keyed : ∀ vars bs name written, lastBinding? name bs = some (some written) →
    vars.get? name = none → ∃ text, (name, text) ∈ loader.assignments vars bs

/-- Which names are set for a file. -/
theorem Documented.mem_assignments {loader : EnvLoader} (h : loader.Documented) {vars : Variables}
    {bs : List Binding} {name : Text} :
    (∃ text, (name, text) ∈ loader.assignments vars bs) ↔
      vars.get? name = none ∧ ∃ written, lastBinding? name bs = some (some written) :=
  ⟨fun ⟨_, hmem⟩ => ⟨h.overrideOff _ _ _ _ hmem, h.bareKey _ _ _ _ hmem⟩,
    fun ⟨hunset, _, hlast⟩ => h.keyed _ _ _ _ hlast hunset⟩

variable {loader : EnvLoader} {vars : Variables} {bs : List Binding}

/-- A variable that is set is none of those that are set for a file. -/
theorem Documented.not_mem_assignments (h : loader.Documented) {name : Text}
    (hset : vars.get? name ≠ none) : name ∉ (loader.assignments vars bs).map (·.1) := by
  intro hmem
  obtain ⟨⟨_, text⟩, hentry, rfl⟩ := List.mem_map.mp hmem
  exact hset (h.overrideOff _ _ _ _ hentry)

/-- Nothing is left to set where the variables of a file have been set. -/
theorem Documented.assignments_again (h : loader.Documented)
    (hfault : (Settings.assignAll vars (loader.assignments vars bs)).fault = none) :
    loader.assignments (Settings.assignAll vars (loader.assignments vars bs)).vars bs = [] := by
  rw [List.eq_nil_iff_forall_not_mem]
  rintro ⟨name, text⟩ hmem
  obtain ⟨hunset, hlast⟩ := h.mem_assignments.mp ⟨text, hmem⟩
  cases hbefore : vars.get? name with
  | some old =>
      have hkept := Settings.isSome_get?_assignAll (loader.assignments vars bs)
        (Option.isSome_iff_exists.mpr ⟨old, hbefore⟩)
      rw [hunset] at hkept
      cases hkept
  | none =>
      -- The file binds it to a text last, so the first loading has set it.
      obtain ⟨first, hfirst⟩ := h.mem_assignments.mpr ⟨hbefore, hlast⟩
      have hset := Settings.isSome_get?_assignAll_of_mem hfault hfirst
      rw [hunset] at hset
      cases hset

end EnvLoader

/-! ## The loader of the program -/

namespace EnvFile

theorem lookup_binding (name : Text) (value : Option Text) (bs : List Binding) (other : Text) :
    ((name, value) :: bs).lookup other = if other = name then some value else bs.lookup other := by
  rw [List.lookup_cons]
  split
  · rename_i h
    rw [if_pos (eq_of_beq h)]
  · rename_i h
    rw [if_neg (ne_of_beq_false h)]

theorem lookup_of_mem {bs : List Binding} (hnames : (bs.map (·.1)).Nodup) {name : Text}
    {value : Option Text} (h : (name, value) ∈ bs) : bs.lookup name = some value := by
  induction bs with
  | nil => cases h
  | cons binding more ih =>
      obtain ⟨hfirst, hmore⟩ := List.nodup_cons.mp hnames
      obtain ⟨known, old⟩ := binding
      rw [lookup_binding]
      rcases List.mem_cons.mp h with heq | hmem
      · obtain ⟨rfl, rfl⟩ := Prod.mk.inj heq
        exact if_pos rfl
      · have hname : name ∈ more.map (·.1) := List.mem_map_of_mem hmem
        have hne : name ≠ known := by
          rintro rfl
          exact hfirst hname
        rw [if_neg hne, ih hmore hmem]

/-- A name that is bound anew keeps its place; a new name comes last. -/
theorem map_fst_bind (name : Text) (value : Option Text) (bs : List Binding) :
    (bind name value bs).map (·.1) =
      if name ∈ bs.map (·.1) then bs.map (·.1) else bs.map (·.1) ++ [name] := by
  induction bs with
  | nil => rfl
  | cons binding more ih =>
      obtain ⟨known, old⟩ := binding
      by_cases hname : known = name
      · simp [bind, hname]
      · have hne : name ≠ known := fun e => hname e.symm
        simp only [bind, hname, if_false, List.map_cons, ih, List.mem_cons, hne, false_or]
        split
        · rfl
        · rfl

theorem lookup_bind (name : Text) (value : Option Text) (bs : List Binding) (other : Text) :
    (bind name value bs).lookup other = if other = name then some value else bs.lookup other := by
  induction bs with
  | nil => exact lookup_binding name value [] other
  | cons binding more ih =>
      obtain ⟨known, old⟩ := binding
      unfold bind
      by_cases hknown : known = name
      · rw [if_pos hknown, lookup_binding, lookup_binding, hknown]
        split
        · rfl
        · rfl
      · rw [if_neg hknown, lookup_binding, lookup_binding, ih]
        by_cases hother : other = known
        · rw [if_pos hother, if_pos hother, if_neg (hother ▸ hknown)]
        · rw [if_neg hother, if_neg hother]

theorem nodup_resolve (vars : Variables) (bound bs : List Binding)
    (h : (bound.map (·.1)).Nodup) : ((resolve vars bound bs).map (·.1)).Nodup := by
  induction bs generalizing bound with
  | nil => exact h
  | cons binding more ih =>
      apply ih
      rw [map_fst_bind]
      split
      · exact h
      · rename_i hname
        simpa using h.concat hname

/-- Which names a file binds to a text does not depend on the variables: the last binding of a name
decides. -/
theorem isSome_lookup_resolve (vars : Variables) (bound bs : List Binding) (name : Text) :
    ((resolve vars bound bs).lookup name).join.isSome =
      ((EnvLoader.lastBinding? name bs).or (bound.lookup name)).join.isSome := by
  induction bs generalizing bound with
  | nil => rfl
  | cons binding more ih =>
      obtain ⟨first, value⟩ := binding
      have hlast : EnvLoader.lastBinding? name ((first, value) :: more) =
          (EnvLoader.lastBinding? name more).or (if name = first then some value else none) := by
        rw [EnvLoader.lastBinding?, List.reverse_cons, List.lookup_append, lookup_binding,
          List.lookup_nil]
        rfl
      rw [resolve, ih, lookup_bind, hlast, Option.or_assoc]
      cases EnvLoader.lastBinding? name more with
      | some last => rfl
      | none =>
          by_cases hname : name = first
          · rw [if_pos hname, if_pos hname]
            cases value with
            | none => rfl
            | some text => rfl
          · rw [if_neg hname, if_neg hname]
            rfl

theorem mem_assignments_iff {vars : Variables} {bs : List Binding} {name text : Text} :
    (name, text) ∈ assignments vars bs ↔
      vars.get? name = none ∧ (resolve vars [] bs).lookup name = some (some text) := by
  have hnames := nodup_resolve vars [] bs List.nodup_nil
  unfold assignments
  rw [List.mem_filterMap]
  constructor
  · rintro ⟨⟨first, value⟩, hmem, hvalue⟩
    dsimp only at hvalue
    split at hvalue
    · cases hvalue
    · rename_i hunset
      obtain ⟨_, rfl, heq⟩ := Option.map_eq_some_iff.mp hvalue
      obtain ⟨rfl, rfl⟩ := Prod.mk.inj heq
      exact ⟨by simpa using hunset, lookup_of_mem hnames hmem⟩
  · rintro ⟨hunset, hlookup⟩
    obtain ⟨front, back, hsplit, -⟩ := List.lookup_eq_some_iff.mp hlookup
    refine ⟨(name, some text), by simp [hsplit], ?_⟩
    dsimp only
    rw [hunset]
    rfl

/-- The loader of the program does what is documented of a library. -/
theorem documented_loader : loader.Documented := by
  have hlast : ∀ (vars : Variables) (bs : List Binding) (name : Text),
      ((resolve vars [] bs).lookup name).join.isSome =
        (EnvLoader.lastBinding? name bs).join.isSome := by
    intro vars bs name
    rw [isSome_lookup_resolve, List.lookup_nil, Option.or_none]
  constructor
  case overrideOff => exact fun _ _ _ _ hmem => (mem_assignments_iff.mp hmem).1
  case bareKey =>
    intro vars bs name text hmem
    have hsome := hlast vars bs name
    rw [(mem_assignments_iff.mp hmem).2] at hsome
    obtain ⟨written, hwritten⟩ := Option.isSome_iff_exists.mp hsome.symm
    exact ⟨written, Option.join_eq_some_iff.mp hwritten⟩
  case keyed =>
    intro vars bs name written hbound hunset
    have hsome := hlast vars bs name
    rw [hbound] at hsome
    obtain ⟨text, htext⟩ := Option.isSome_iff_exists.mp hsome
    exact ⟨text, mem_assignments_iff.mpr ⟨hunset, Option.join_eq_some_iff.mp htext⟩⟩

end EnvFile

/-! ## Settings -/

namespace Settings

/-- The settings agree in all that is decided by variables that are set. -/
structure AgreeWhereSet (vars : Variables) (s s' : Settings) : Prop where
  direction : (vars.get? directionName).isSome → s.direction = s'.direction
  labelLimit : (vars.get? labelLimitName).isSome → s.labelLimit = s'.labelLimit
  inputLimit : (vars.get? inputLimitName).isSome → s.inputLimit = s'.inputLimit
  useTool : (vars.get? useToolName).isSome → s.useTool = s'.useTool

/-- The texts of variables that are set are kept. -/
def Keeps (vars after : Variables) : Prop :=
  ∀ name text, vars.get? name = some text → after.get? name = some text

theorem agreeWhereSet_ofVariables {vars after after' : Variables} (h : Keeps vars after)
    (h' : Keeps vars after') : AgreeWhereSet vars (ofVariables after) (ofVariables after') := by
  have hget : ∀ {name}, (vars.get? name).isSome → after.get? name = after'.get? name := by
    intro name hset
    obtain ⟨text, htext⟩ := Option.isSome_iff_exists.mp hset
    rw [h name text htext, h' name text htext]
  constructor
  · intro hset
    exact congrArg (directionOr .td) (hget hset)
  · intro hset
    exact congrArg (positiveOr 25) (hget hset)
  · intro hset
    exact congrArg (positiveOr 200000) (hget hset)
  · intro hset
    exact congrArg (·.any saysYes) (hget hset)

variable {loader : EnvLoader}

theorem loadVariables_of_bindings {tree : FileTree} {folder : Place} {named : Option WrittenPath}
    {path : WrittenPath} {bs : List Binding} (hpath : named.or (nearest tree folder) = some path)
    (hexists : tree.pathExists [] path = true)
    (hbindings : loader.bindings (tree.readPath [] path).toOption = .ok bs) (vars : Variables) :
    loadVariables loader tree folder named vars =
      { vars := (assignAll vars (loader.assignments vars bs)).vars
        fault := (assignAll vars (loader.assignments vars bs)).fault.map .unsettable } := by
  unfold loadVariables loadFile
  simp only [hpath, hexists, if_true, hbindings]

/-- What is loaded does not depend on the variables: it is bindings, or nothing, perhaps because the
file is unreadable. -/
theorem loadVariables_cases (loader : EnvLoader) (tree : FileTree) (folder : Place)
    (named : Option WrittenPath) :
    (∃ bs, ∀ vars, loadVariables loader tree folder named vars =
      { vars := (assignAll vars (loader.assignments vars bs)).vars
        fault := (assignAll vars (loader.assignments vars bs)).fault.map .unsettable }) ∨
      ∃ fault, ∀ vars, loadVariables loader tree folder named vars = { vars, fault } := by
  cases hpath : named.or (nearest tree folder) with
  | none =>
      refine .inr ⟨none, fun vars => ?_⟩
      unfold loadVariables
      rw [hpath]
  | some path =>
      cases hexists : tree.pathExists [] path with
      | false =>
          refine .inr ⟨none, fun vars => ?_⟩
          unfold loadVariables loadFile
          simp only [hpath, hexists, Bool.false_eq_true, if_false]
      | true =>
          cases hbindings : loader.bindings (tree.readPath [] path).toOption with
          | error gap =>
              refine .inr ⟨some (.unreadable gap), fun vars => ?_⟩
              unfold loadVariables loadFile
              simp only [hpath, hexists, if_true, hbindings]
          | ok bs => exact .inl ⟨bs, loadVariables_of_bindings hpath hexists hbindings⟩

theorem loadSettings_eq_ok_iff {tree : FileTree} {folder : Place} {named : Option WrittenPath}
    {vars : Variables} {s : Settings} :
    loadSettings loader tree folder named vars = .ok s ↔
      (loadVariables loader tree folder named vars).fault = none ∧
        ofVariables (loadVariables loader tree folder named vars).vars = s := by
  unfold loadSettings Loaded.map
  cases (loadVariables loader tree folder named vars).fault with
  | none => simp
  | some fault => simp

section Documented

variable (h : loader.Documented) (tree : FileTree) (folder : Place) (named : Option WrittenPath)
  (vars : Variables)

include h

theorem keeps_loadVariables : Keeps vars (loadVariables loader tree folder named vars).vars := by
  intro name text hset
  rcases loadVariables_cases loader tree folder named with ⟨bs, hbs⟩ | ⟨fault, hfault⟩
  · rw [hbs, get?_assignAll_of_not_mem (h.not_mem_assignments (by simp [hset])), hset]
  · rw [hfault, hset]

theorem loadVariables_again (hfault : (loadVariables loader tree folder named vars).fault = none) :
    loadVariables loader tree folder named (loadVariables loader tree folder named vars).vars =
      { vars := (loadVariables loader tree folder named vars).vars } := by
  rcases loadVariables_cases loader tree folder named with ⟨bs, hbs⟩ | ⟨fault, hnothing⟩
  · simp only [hbs] at hfault ⊢
    rw [h.assignments_again (Option.map_eq_none_iff.mp hfault)]
    rfl
  · simp only [hnothing] at hfault ⊢
    rw [hfault]

/-- A variable that is not set is set exactly if the file binds it to a text last. -/
theorem isSome_get?_loadVariables {bs : List Binding} {path : WrittenPath}
    (hpath : named.or (nearest tree folder) = some path) (hexists : tree.pathExists [] path = true)
    (hbindings : loader.bindings (tree.readPath [] path).toOption = .ok bs)
    (hfault : (loadVariables loader tree folder named vars).fault = none) {name : Text}
    (hunset : vars.get? name = none) :
    ((loadVariables loader tree folder named vars).vars.get? name).isSome =
      (EnvLoader.lastBinding? name bs).join.isSome := by
  rw [loadVariables_of_bindings hpath hexists hbindings] at hfault ⊢
  cases hlast : (EnvLoader.lastBinding? name bs).join with
  | some written =>
      obtain ⟨text, hmem⟩ := h.keyed vars bs name written (Option.join_eq_some_iff.mp hlast) hunset
      exact isSome_get?_assignAll_of_mem (Option.map_eq_none_iff.mp hfault) hmem
  | none =>
      have hnot : name ∉ (loader.assignments vars bs).map (·.1) := by
        intro hmem
        obtain ⟨⟨_, text⟩, hentry, rfl⟩ := List.mem_map.mp hmem
        obtain ⟨written, hwritten⟩ := h.bareKey _ _ _ _ hentry
        rw [hwritten] at hlast
        cases hlast
      show ((assignAll vars (loader.assignments vars bs)).vars.get? name).isSome = _
      rw [get?_assignAll_of_not_mem hnot, hunset]

end Documented

/-- What loading does and does not do to the variables and the settings. -/
structure LeavesSet (loader : EnvLoader) (tree : FileTree) (folder : Place)
    (named : Option WrittenPath) (vars : Variables) : Prop where
  /-- A variable that is set keeps its text, also an empty one, and also when the loading stops. -/
  kept : ∀ name text, vars.get? name = some text →
    (loadVariables loader tree folder named vars).vars.get? name = some text
  /-- A variable that is not set is set exactly if the file binds it to a text last. -/
  bound : ∀ path bs, named.or (nearest tree folder) = some path →
    tree.pathExists [] path = true → loader.bindings (tree.readPath [] path).toOption = .ok bs →
      (loadVariables loader tree folder named vars).fault = none →
        ∀ name, vars.get? name = none →
          ((loadVariables loader tree folder named vars).vars.get? name).isSome =
            (EnvLoader.lastBinding? name bs).join.isSome
  /-- What is decided by variables that are set does not depend on what is loaded. -/
  independent : ∀ tree' folder' named' s s', loadSettings loader tree folder named vars = .ok s →
    loadSettings loader tree' folder' named' vars = .ok s' → AgreeWhereSet vars s s'
  /-- Loading once more changes no variable and gives the same settings. -/
  again : ∀ s, loadSettings loader tree folder named vars = .ok s →
    loadVariables loader tree folder named (loadVariables loader tree folder named vars).vars =
        { vars := (loadVariables loader tree folder named vars).vars } ∧
      loadSettings loader tree folder named (loadVariables loader tree folder named vars).vars =
        .ok s

/-- Of every loading by a library as documented, whatever the files and the variables are. -/
theorem loading_leavesSet {loader : EnvLoader} (h : loader.Documented) (tree : FileTree)
    (folder : Place) (named : Option WrittenPath) (vars : Variables) :
    LeavesSet loader tree folder named vars where
  kept := keeps_loadVariables h tree folder named vars
  bound := by
    intro path bs hpath hexists hbindings hfault name hunset
    exact isSome_get?_loadVariables h tree folder named vars hpath hexists hbindings hfault hunset
  independent := by
    intro tree' folder' named' s s' hload hload'
    obtain ⟨-, rfl⟩ := loadSettings_eq_ok_iff.mp hload
    obtain ⟨-, rfl⟩ := loadSettings_eq_ok_iff.mp hload'
    exact agreeWhereSet_ofVariables (keeps_loadVariables h tree folder named vars)
      (keeps_loadVariables h tree' folder' named' vars)
  again := by
    intro s hload
    obtain ⟨hfault, hs⟩ := loadSettings_eq_ok_iff.mp hload
    have hagain := loadVariables_again h tree folder named vars hfault
    refine ⟨hagain, loadSettings_eq_ok_iff.mpr ?_⟩
    rw [hagain]
    exact ⟨rfl, hs⟩

/-- A file whose second line mentions a variable that its last line binds. -/
def sampleText : Text :=
  "FLOWGRAPH_DIRECTION=LR\nFLOWGRAPH_LABEL_MAX_CHARS=$\x7bWIDTH\x7d\nWIDTH=40\nHEIGHT\n".toList

/-- The file around an empty folder. -/
def sampleTree : FileTree :=
  { files := [([fileName], Encoding.encodeUtf8 sampleText)], folders := [["a".toList]] }

/-- A variable that is set to the empty text, where the file has another one. -/
def sampleVariables : Variables := [(directionName, [])]

/-- What is set once the file is loaded. -/
def sampleLoaded : Variables :=
  [("WIDTH".toList, "40".toList), (labelLimitName, []), (directionName, [])]

/-- What the second line mentions is not set when the file is loaded, and set when it is loaded once
more; the label limit stays as it was. The name in the last line stands alone, and is not set. -/
theorem loading_leavesSet_interpolated :
    EnvFile.loader.Documented ∧
      loadVariables EnvFile.loader sampleTree ["a".toList] none sampleVariables =
        { vars := sampleLoaded } ∧
      loadSettings EnvFile.loader sampleTree ["a".toList] none sampleVariables = .ok {} ∧
      sampleLoaded.get? directionName = some [] ∧
      (sampleLoaded.get? "WIDTH".toList).isSome = true ∧
      (sampleLoaded.get? "HEIGHT".toList).isSome = false ∧
      (EnvFile.resolve sampleLoaded [] (EnvFile.bindings sampleText)).lookup labelLimitName =
        some (some "40".toList) ∧
      loadVariables EnvFile.loader sampleTree ["a".toList] none sampleLoaded =
        { vars := sampleLoaded } ∧
      loadSettings EnvFile.loader sampleTree ["a".toList] none sampleLoaded = .ok {} := by
  have hpath : (none : Option WrittenPath).or (nearest sampleTree ["a".toList]) =
      some ⟨[], [fileName]⟩ := by decide +kernel
  have hexists : sampleTree.pathExists [] ⟨[], [fileName]⟩ = true := by decide +kernel
  have hbindings : EnvFile.loader.bindings (sampleTree.readPath [] ⟨[], [fileName]⟩).toOption =
      .ok [(directionName, some "LR".toList), (labelLimitName, some "$\x7bWIDTH\x7d".toList),
        ("WIDTH".toList, some "40".toList), ("HEIGHT".toList, none)] := by
    decide +kernel
  have hloaded : loadVariables EnvFile.loader sampleTree ["a".toList] none sampleVariables =
      { vars := sampleLoaded } := by
    rw [loadVariables_of_bindings hpath hexists hbindings]
    decide +kernel
  have hload : loadSettings EnvFile.loader sampleTree ["a".toList] none sampleVariables =
      .ok {} := by
    rw [loadSettings, hloaded]
    decide +kernel
  have h := loading_leavesSet EnvFile.documented_loader sampleTree ["a".toList] none sampleVariables
  have hkept := h.kept directionName [] rfl
  have hbound := h.bound _ _ hpath hexists hbindings (by rw [hloaded])
  have hwidth := hbound "WIDTH".toList rfl
  have hheight := hbound "HEIGHT".toList rfl
  have hagain := h.again _ hload
  rw [hloaded] at hkept hwidth hheight hagain
  refine ⟨EnvFile.documented_loader, hloaded, hload, hkept, hwidth, hheight, ?_, hagain⟩
  decide +kernel

end Settings

end Flowchart
