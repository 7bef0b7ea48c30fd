import Sift.Command.Disk
import Sift.Proofs.Results

/-!
# What a run reads

A run reads the variables of its options, the documents that its command line names,
and standard input if one of them stands for it, and nothing else. So all of it can be
read beforehand, and nothing that is added to a disk matters to a run that finds its
documents there.

* `Sources.Alike`: sources that have the same documents under some paths, and
  `Command.run_eq_of_alike`: that a run does not tell them apart;
* `Command.run_gathered`: that a run leaves the same if everything it names is read
  beforehand;
* `Disk.Within`: disks of which one has all that the other one has, and
  `Disk.Within.read_eq_ok`: that files are read alike from them;
* `Disk.run_eq_of_within`, `Disk.run_add`: that a run that finds its files leaves the
  same where there is more.
-/

namespace Sift.Command

/-! ## Variables -/

namespace Arguments

variable {environment environment' : String → Option String}

/-- A command line depends on the variables that options have, and on no others. -/
theorem parse_congr (h : ∀ s name, Setting.environmentName s = some name →
      environment' name = environment name) (arguments : List String) :
    parse environment' arguments = parse environment arguments := by
  have hbind (s : Setting) :
      s.environmentName.bind environment' = s.environmentName.bind environment := by
    cases hname : s.environmentName with
    | none => rfl
    | some name => exact h s name hname
  have hvariables (settings : List Setting) :
      withVariables environment' settings = withVariables environment settings := by
    induction settings with
    | nil => rfl
    | cons s settings ih => exact funext fun a => by simp only [withVariables, hbind, ih]
  have hfinish (a : Arguments) : a.finish environment' = a.finish environment := by
    rw [finish, finish, hvariables]
  have htake (pending : Option Setting) (ended : Bool) (a : Arguments) :
      take environment' pending ended a arguments = take environment pending ended a arguments := by
    induction arguments generalizing pending ended a with
    | nil => rw [take, take, hfinish]
    | cons text arguments ih => simp only [take, ih]
  exact htake .none false .none

end Arguments

/-! ## Documents -/

/-- Sources that have the same documents under some paths. -/
structure Sources.Alike (sources sources' : Sources) (paths : List String) : Prop where
  file : ∀ path ∈ paths, Path.isStandardInput path = false →
    sources'.file path = sources.file path
  standardInput : ∀ path ∈ paths, Path.isStandardInput path = true →
    sources'.standardInput = sources.standardInput

section

variable {sources sources' : Sources} {a : Arguments}

namespace Sources.Alike

theorem readDocument_eq {paths : List String} (h : Alike sources sources' paths) {path : String}
    (hpath : path ∈ paths) (exhausted : Bool) :
    readDocument sources' exhausted path = readDocument sources exhausted path := by
  cases hinput : Path.isStandardInput path with
  | false => simp [readDocument, hinput, h.file path hpath hinput]
  | true => simp [readDocument, hinput, h.standardInput path hpath hinput]

theorem schemaStage_eq (h : Alike sources sources' a.paths) :
    schemaStage sources' a = schemaStage sources a := by
  rw [schemaStage, schemaStage]
  cases hpath : a.get? .schema with
  | none => rfl
  | some path =>
    have hmem : path ∈ a.paths := List.mem_filterMap.2 ⟨.schema, by decide, hpath⟩
    simp only [h.readDocument_eq hmem]

theorem recordsStage_eq (h : Alike sources sources' a.paths) (schema : Option Schema) :
    recordsStage sources' a schema = recordsStage sources a schema := by
  rw [recordsStage, recordsStage]
  cases hpath : a.get? .records with
  | none => rfl
  | some path =>
    have hmem : path ∈ a.paths := List.mem_filterMap.2 ⟨.records, by decide, hpath⟩
    simp only [h.readDocument_eq hmem]

theorem filterStage_eq (h : Alike sources sources' a.paths) :
    filterStage sources' a = filterStage sources a := by
  rw [filterStage, filterStage]
  cases hpath : a.get? .filter with
  | none => cases a.query <;> rfl
  | some path =>
    have hmem : path ∈ a.paths := List.mem_filterMap.2 ⟨.filter, by decide, hpath⟩
    simp only [h.readDocument_eq hmem]

theorem perform_eq (h : Alike sources sources' a.paths) :
    perform sources' a = perform sources a := by
  simp only [perform, h.schemaStage_eq, h.recordsStage_eq, h.filterStage_eq]

end Sources.Alike

/-- A run depends on the variables of its options and on the documents that its command
    line names. -/
theorem run_eq_of_alike {arguments : List String}
    (hvariables : ∀ s name, Setting.environmentName s = some name →
      sources'.environment name = sources.environment name)
    (h : sources.Alike sources' (Arguments.namedPaths sources.environment arguments)) :
    run sources' arguments = run sources arguments := by
  rw [run, run, Arguments.parse_congr hvariables]
  rw [Arguments.namedPaths] at h
  cases hrequest : Arguments.parse sources.environment arguments with
  | run a =>
    rw [hrequest] at h
    simp only [Sources.Alike.perform_eq h]
  | help | version | refused => rfl

end

/-! ## Reading beforehand -/

/-- What a command line names, read beforehand. -/
def Sources.gathered (sources : Sources) (arguments : List String) : Sources :=
  let paths := Arguments.namedPaths sources.environment arguments
  let files := paths.filter fun path => !Path.isStandardInput path
  .ofRead (Setting.environmentNames.filterMap fun name =>
      (sources.environment name).map fun v => (name, v))
    (files.map fun path => (path, sources.file path))
    (if paths.any Path.isStandardInput then sources.standardInput else .ok "")

theorem lookup_filterMap (f : String → Option String) (names : List String) (name : String) :
    (names.filterMap fun name => (f name).map fun v => (name, v)).lookup name =
      if name ∈ names then f name else none := by
  induction names with
  | nil => rfl
  | cons other names ih =>
    by_cases hname : name = other
    · subst hname
      cases hvalue : f name with
      | none => simp [hvalue, ih]
      | some v => simp [hvalue]
    · cases hvalue : f other with
      | none => simp [hvalue, ih, hname]
      | some v => simp [hvalue, ih, hname, List.lookup_cons, beq_false_of_ne hname]

/-- A run leaves the same if everything that its command line names is read
    beforehand. -/
theorem run_gathered (sources : Sources) (arguments : List String) :
    run (sources.gathered arguments) arguments = run sources arguments := by
  refine run_eq_of_alike (fun s name hname => ?_) ⟨fun path hpath hinput => ?_,
    fun path hpath hinput => ?_⟩
  · have hall : s ∈ Setting.all := by cases s <;> decide
    exact (lookup_filterMap sources.environment Setting.environmentNames name).trans
      (if_pos (List.mem_filterMap.2 ⟨s, hall, hname⟩))
  · have hmem : path ∈ (Arguments.namedPaths sources.environment arguments).filter
        fun path => !Path.isStandardInput path :=
      List.mem_filter.2 ⟨hpath, by rw [hinput]; rfl⟩
    exact congrArg (Option.getD · _) (List.lookup_graph sources.file hmem)
  · exact if_pos (List.any_eq_true.2 ⟨path, hpath, hinput⟩)

/-! ## Disks -/

namespace Disk

/-- Whether one disk has all that another one has. -/
def Within (d d' : Disk) : Prop := ∀ steps n, d.node steps = .ok n → d'.node steps = .ok n

/-- The disk with one more file. -/
def add (d : Disk) (steps : List (List Char)) (text : String) : Disk :=
  { d with files := d.files ++ [(steps, text)] }

variable {d d' : Disk} {home : List (List Char)}

/-- A file that stands where nothing stood before takes nothing away. -/
theorem within_add {steps : List (List Char)} {text : String}
    (h : d.node steps = .error .missing) : d.Within (d.add steps text) := by
  intro steps' n hnode
  unfold node at hnode h ⊢
  have hfolder : d.hasFolder steps' = true → (d.add steps text).hasFolder steps' = true := by
    simp only [hasFolder, add, List.any_append, Bool.or_eq_true]
    rintro ((hroot | hfolder) | hfile)
    · exact .inl (.inl hroot)
    · exact .inl (.inr hfolder)
    · exact .inr (.inl hfile)
  rw [add, List.lookup_append]
  cases hfile : d.files.lookup steps' with
  | some text' =>
    rw [hfile] at hnode
    exact hnode
  | none =>
    -- What was a folder before is not the place of the new file.
    have hne : steps' ≠ steps := by
      rintro rfl
      rw [h] at hnode
      cases hnode
    have hnew : [(steps, text)].lookup steps' = none := by
      rw [List.lookup_cons, beq_false_of_ne hne]
      rfl
    rw [hfile] at hnode
    rw [hnew]
    split_ifs at hnode with hd
    · exact hnode ▸ if_pos (hfolder hd)

/-- A step leads to the same place where there is more. -/
theorem Within.step_eq_ok (h : d.Within d') {n n' : Node} {name : List Char}
    (hstep : d.step n name = .ok n') : d'.step n name = .ok n' := by
  cases n with
  | file text => exact hstep
  | folder steps =>
    unfold step at hstep ⊢
    dsimp only at hstep ⊢
    split_ifs at hstep ⊢ with hstay hback hlong
    · exact hstep
    · exact hstep
    · exact h _ _ hstep

/-- So does a walk, step by step. -/
theorem Within.foldlM_eq_ok (h : d.Within d') {n n' : Node} {names : List (List Char)}
    (hwalk : names.foldlM d.step n = .ok n') : names.foldlM d'.step n = .ok n' := by
  induction names generalizing n with
  | nil => exact hwalk
  | cons name names ih =>
    rw [List.foldlM_cons] at hwalk ⊢
    obtain ⟨next, hstep, hwalk⟩ := Except.bind_eq_ok.1 hwalk
    exact Except.bind_eq_ok.2 ⟨next, h.step_eq_ok hstep, ih hwalk⟩

/-- A file is read if the path is not empty and not too long, and the walk ends at
    it. -/
theorem read_eq_ok_iff {path text : String} : d.read home path = .ok text ↔
    path.toList.isEmpty = false ∧ ¬pathLimit < Text.byteCount path.toList ∧
      (Path.pieces path.toList).foldlM d.step
        (.folder (if path.toList.head? = some '/' then [] else home)) = .ok (.file text) := by
  unfold read
  dsimp only
  cases hempty : path.toList.isEmpty with
  | true => exact iff_of_false nofun nofun
  | false =>
    by_cases hlong : pathLimit < Text.byteCount path.toList
    · rw [if_pos hlong]
      exact iff_of_false nofun fun h => h.2.1 hlong
    · simp only [hlong, Bool.false_eq_true, if_false, not_false_eq_true, true_and]
      rw [Except.bind_eq_ok]
      constructor
      · rintro ⟨n, hwalk, hn⟩
        cases n with
        | file text' =>
          cases hn
          exact hwalk
        | folder _ => cases hn
      · exact fun hwalk => ⟨_, hwalk, rfl⟩

/-- And a file that is read is read alike where there is more. -/
theorem Within.read_eq_ok (h : d.Within d') {path text : String}
    (hread : d.read home path = .ok text) : d'.read home path = .ok text := by
  obtain ⟨hempty, hlong, hwalk⟩ := read_eq_ok_iff.1 hread
  exact read_eq_ok_iff.2 ⟨hempty, hlong, h.foldlM_eq_ok hwalk⟩

section

variable {input : Except String String} {environment : String → Option String}
  {arguments : List String}

/-- Whether a run in the folder `home` finds the files that its command line names. -/
def Finds (d : Disk) (home : List (List Char)) (environment : String → Option String)
    (arguments : List String) : Prop :=
  ∀ path ∈ Arguments.namedPaths environment arguments, Path.isStandardInput path = false →
    ∃ text, d.read home path = .ok text

/-- A run that finds its files leaves the same where there is more. -/
theorem run_eq_of_within (h : d.Within d') (hfiles : d.Finds home environment arguments) :
    run (d'.sources home input environment) arguments =
      run (d.sources home input environment) arguments := by
  refine run_eq_of_alike (fun _ _ _ => rfl) ⟨fun path hpath hinput => ?_, fun _ _ _ => rfl⟩
  obtain ⟨text, hread⟩ := hfiles path hpath hinput
  show (d'.read home path).mapError Reason.message = (d.read home path).mapError Reason.message
  rw [hread, h.read_eq_ok hread]

/-- So a new file does not matter to it. -/
theorem run_add {steps : List (List Char)} {text : String} (hnew : d.node steps = .error .missing)
    (hfiles : d.Finds home environment arguments) :
    run ((d.add steps text).sources home input environment) arguments =
      run (d.sources home input environment) arguments :=
  run_eq_of_within (within_add hnew) hfiles

end

end Disk

end Sift.Command
