import AddressExport.Command.Basic
import AddressExport.Proofs.Command.Inputs
import AddressExport.Proofs.System.Files
import AddressExport.System.Programs

/-!
# What generating a module does to files

Generating has two parts.  Planning finds the settings, names the functions and only looks
(`onlyLooks_planModule`); writing makes the output directory and the two files, and fails only
because it could not (`of_perform_writeModule`).  So a run that fails up to naming leaves the files
as they were, and one that succeeds has changed the two files and directories on the way to the
output directory (`Command.run_generate_outcome`).
-/

namespace AddressExport

open AddressExport.Action

/-! ## Planning -/

/-- How a source in the output directory includes a header on a machine. -/
def Machine.includeSpelling (w : Machine) (output header : Path) : String :=
  if header.isAbsolute || output.same Path.here then header.text
  else ((w.files.resolve? w.directory header).getD header).text

theorem onlyLooks_includeSpelling (output header : Path) :
    OnlyLooks (includeSpelling output header : Action Failure (StateM Machine) String) := by
  unfold includeSpelling
  split
  · exact .pure _
  · exact (OnlyLooks.resolve? header).bind fun _ => .pure _

theorem resultOn_includeSpelling (output header : Path) (w : Machine) :
    (includeSpelling output header).resultOn w = .ok (w.includeSpelling output header) := by
  unfold includeSpelling Machine.includeSpelling
  split <;> rfl

/-- Planning only looks. -/
theorem onlyLooks_planModule (i : Inputs) (o : GenerateOptions) :
    OnlyLooks (planModule i o : Action Failure (StateM Machine) (ModuleSpec × List Binding)) :=
  (OnlyLooks.require _ (o.nameFor? i)).bind fun _ =>
    (Inputs.onlyLooks_bindings i _).bind fun _ =>
      (OnlyLooks.mapM (onlyLooks_includeSpelling o.output) i.headers).bind fun _ =>
        (OnlyLooks.note _).bind fun _ => .pure _

/-- Whether a command plans a module on a machine: it finds settings and a name, and it can name the
functions of the dump. -/
structure IsPlan (w : Machine) (inputs : InputOptions) (o : GenerateOptions) (settings : Settings)
    (spec : ModuleSpec) (bindings : List Binding) : Prop where
  load : (Settings.load w.directoryPath).resultOn w = .ok settings
  name : o.nameFor? (inputs.resolve settings) = some spec.name
  headers : spec.headers = (inputs.resolve settings).headers.map (w.includeSpelling o.output)
  bindings : ∃ dump found kept, (inputs.resolve settings).dumpText.resultOn w = .ok dump ∧
    discover settings.systemPrefixes dump = .ok found ∧
    keepNameable (o.strict || settings.naming.strict) found.targets = .ok kept ∧
    assign kept = .ok bindings

theorem isPlan_of_perform {w w₁ w₂ : Machine} {inputs : InputOptions} {o : GenerateOptions}
    {settings : Settings} {spec : ModuleSpec} {bindings : List Binding}
    (hload : (Settings.load w.directoryPath).resultOn w = .ok settings) (hw : w₁.silent = w.silent)
    (h : (planModule (inputs.resolve settings) o).perform w₁ = (.ok (spec, bindings), w₂)) :
    IsPlan w inputs o settings spec bindings := by
  obtain ⟨name, u, hname, h⟩ := perform_bind_ok h
  have hu : u.silent = w.silent := ((OnlyLooks.require _ _).silent_of_perform hname).trans hw
  obtain ⟨bs, v, hbs, h⟩ := perform_bind_ok h
  have hv : v.silent = w.silent := ((Inputs.onlyLooks_bindings _ _).silent_of_perform hbs).trans hu
  obtain ⟨headers, x, hheaders, h⟩ := perform_bind_ok h
  cases h
  have hmapped :=
    (OnlyLooks.mapM (onlyLooks_includeSpelling o.output) _).resultOn_of_perform hv hheaders
  rw [OnlyLooks.resultOn_mapM (onlyLooks_includeSpelling o.output) fun header =>
    resultOn_includeSpelling o.output header w] at hmapped
  refine ⟨hload, ?_, (Except.ok.inj hmapped).symm,
    Inputs.exists_of_resultOn_bindings ((Inputs.onlyLooks_bindings _ _).resultOn_of_perform hu hbs)⟩
  cases hfor : o.nameFor? (inputs.resolve settings) with
  | none =>
    rw [hfor] at hname
    cases hname
  | some found =>
    rw [hfor] at hname
    cases hname
    rfl

/-! ## Writing -/

/-- Whether the files of a module have been written: each holds what is generated for it, and all
else that has changed are vacant places, which are now directories on the way to the output
directory. -/
structure IsModuleWritten (before after : FileSystem) (directory : List String)
    (o : GenerateOptions) (spec : ModuleSpec) (bindings : List Binding) : Prop where
  accessors : after.read? directory (o.accessorsPath spec) = some (spec.accessors bindings).toUTF8
  wrapper : after.read? directory (o.wrapperPath spec) = some (spec.wrapper bindings).toUTF8
  changes : ∀ names, after.lookup? names = before.lookup? names ∨
    (before.lookup? names ≠ some .directory ∧
      (after.LeadsTo directory (o.accessorsPath spec) names ∨
        after.LeadsTo directory (o.wrapperPath spec) names)) ∨
    (before.lookup? names = none ∧ after.lookup? names = some .directory ∧
      ∃ p ∈ o.output.ancestors, after.LeadsTo directory p names)

section Files

variable {fs fs₁ fs₂ fs₃ : FileSystem} {directory : List String} {o : GenerateOptions}
  {spec : ModuleSpec}
  {bindings : List Binding}

theorem getLast?_accessorsPath (o : GenerateOptions) (spec : ModuleSpec) :
    (o.accessorsPath spec).text.toList.getLast? = some 'p' := by
  apply Path.getLast?_join
  simp [ModuleSpec.accessorsFile]

theorem getLast?_wrapperPath (o : GenerateOptions) (spec : ModuleSpec) :
    (o.wrapperPath spec).text.toList.getLast? = some 'y' := by
  apply Path.getLast?_join
  simp [ModuleSpec.wrapperFile]

/-- The two files are at different places, so writing the second one leaves the first one as it
was. -/
theorem isModuleWritten_of_write (hmade : (fs.createDirectory directory o.output).1 = fs₁)
    (haccessors : fs₁.write directory (o.accessorsPath spec) (spec.accessors bindings).toUTF8 =
      (fs₂, true))
    (hwrapper : fs₂.write directory (o.wrapperPath spec) (spec.wrapper bindings).toUTF8 =
      (fs₃, true)) :
    IsModuleWritten fs fs₃ directory o spec bindings := by
  have hadds : FileSystem.AddsDirectories fs fs₁ directory o.output.ancestors :=
    hmade ▸ FileSystem.addsDirectories_makeDirectories fs directory o.output.ancestors
  obtain ⟨names, hfirst⟩ := FileSystem.exists_isWritten_of_write haccessors
  obtain ⟨names', hsecond⟩ := FileSystem.exists_isWritten_of_write hwrapper
  have hne : names ≠ names' := FileSystem.places_ne (getLast?_accessorsPath o spec) (by decide)
    (getLast?_wrapperPath o spec) (by decide) (by decide) hfirst.destination hsecond.destination
  have hstays : fs₃.destination directory (o.accessorsPath spec) =
      .found names (.file (spec.accessors bindings).toUTF8) :=
    hfirst.destination_of_isWritten hsecond hne
  refine ⟨FileSystem.read?_of_destination hstays,
    FileSystem.read?_of_destination hsecond.destination, ?_⟩
  intro place
  by_cases hplace' : place = names'
  · subst hplace'
    have hplain := (hadds.keeps.trans hfirst.keeps).ne_directory hsecond.notDirectory
    exact .inr (.inl ⟨hplain, .inr ⟨_, hsecond.destination⟩⟩)
  by_cases hplace : place = names
  · subst hplace
    have hplain := hadds.keeps.ne_directory hfirst.notDirectory
    exact .inr (.inl ⟨hplain, .inl ⟨_, hstays⟩⟩)
  · have hsame : fs₃.lookup? place = fs₁.lookup? place := by
      rw [hsecond.lookup, if_neg hplace', hfirst.lookup, if_neg hplace]
    rw [hsame]
    rcases hadds place with hold | ⟨hnone, hnew, p, hp, hleads⟩
    · exact .inl hold
    · exact .inr (.inr ⟨hnone, hnew, p, hp, hleads.of_keeps (hfirst.keeps.trans hsecond.keeps)⟩)

end Files

section Writing

variable {w w' : Machine} {result : Except Failure Unit}

/-- Writing a generated file fails only because the file cannot be written. -/
theorem of_perform_writeGenerated {path : Path} {source : String}
    (h : (writeGenerated path source).perform w = (result, w')) :
    w'.directory = w.directory ∧
      ((result = .ok () ∧ w.files.write w.directory path source.toUTF8 = (w'.files, true)) ∨
        result = .error (.notWritten path)) := by
  simp only [writeGenerated, perform_bind, perform_note, perform_writeText] at h
  rcases hwrite : w.files.write w.directory path source.toUTF8 with ⟨files, isDone⟩
  rw [hwrite] at h
  cases isDone with
  | true =>
    cases h
    exact ⟨rfl, .inl ⟨rfl, rfl⟩⟩
  | false =>
    cases h
    exact ⟨rfl, .inr rfl⟩

/-- Writing fails only because a directory or a file cannot be made. -/
theorem of_perform_writeModule {o : GenerateOptions} {spec : ModuleSpec} {bindings : List Binding}
    (h : (writeModule o spec bindings).perform w = (result, w')) :
    (result = .ok () ∧ IsModuleWritten w.files w'.files w.directory o spec bindings) ∨
      result = .error (.notCreated o.output) ∨ ∃ path, result = .error (.notWritten path) := by
  simp only [writeModule, perform_bind, perform_createDirectory] at h
  rcases hmade : w.files.createDirectory w.directory o.output with ⟨files, isMade⟩
  rw [hmade] at h
  cases isMade with
  | false =>
    cases h
    exact .inr (.inl rfl)
  | true =>
    rcases perform_bind_cases h with ⟨e, rfl, hfirst⟩ | ⟨⟨⟩, w₁, hfirst, hsecond⟩
    · rcases (of_perform_writeGenerated hfirst).2 with ⟨hok, -⟩ | herror
      · cases hok
      · exact .inr (.inr ⟨_, herror⟩)
    · obtain ⟨hdirectory, ⟨-, haccessors⟩ | herror⟩ := of_perform_writeGenerated hfirst
      · rcases (of_perform_writeGenerated hsecond).2 with ⟨rfl, hwrapper⟩ | herror
        · rw [hdirectory] at hwrapper
          exact .inl ⟨rfl, isModuleWritten_of_write (by rw [hmade]) haccessors hwrapper⟩
        · exact .inr (.inr ⟨_, herror⟩)
      · cases herror

end Writing

/-! ## Whole runs -/

/-- Whether a failure is one of settings, inputs or names.  A failure of the compiler is, if it is
the one that getting the dump ends with. -/
inductive Failure.PrecedesWriting (w : Machine) (inputs : InputOptions) : Failure → Prop
  | noWorkingDirectory : PrecedesWriting w inputs .noWorkingDirectory
  | unreadable (path : Path) : PrecedesWriting w inputs (.unreadable path)
  | invalidSettings (path : Path) : PrecedesWriting w inputs (.invalidSettings path)
  | noHeaders : PrecedesWriting w inputs .noHeaders
  | missingModuleName : PrecedesWriting w inputs .missingModuleName
  | unnameable (errors : List NameError) : PrecedesWriting w inputs (.unnameable errors)
  | naming (e : NameError) : PrecedesWriting w inputs (.naming e)
  | dump (e : DumpError) : PrecedesWriting w inputs (.dump e)
  | compiler {e : CompilerError} {settings : Settings}
      (hload : (Settings.load w.directoryPath).resultOn w = .ok settings)
      (hdump : (inputs.resolve settings).dumpText.resultOn w = .error (.compiler e)) :
      PrecedesWriting w inputs (.compiler e)

/-- Building the library fails only because the compiler does. -/
theorem of_perform_buildModule {w w' : Machine} {i : Inputs} {o : GenerateOptions}
    {spec : ModuleSpec} {f : Failure} (h : (buildModule i o spec).perform w = (.error f, w')) :
    ∃ e, f = .compiler e := by
  rcases perform_bind_cases h with ⟨_, -, hnote⟩ | ⟨⟨⟩, w₁, -, h⟩
  · cases hnote
  rcases perform_bind_cases h with ⟨e, he, hbuild⟩ | ⟨⟨⟩, w₂, -, hprint⟩
  · cases he
    obtain ⟨e', he, -⟩ := exists_of_perform_mapError hbuild
    exact ⟨e', he⟩
  · cases hprint

/-- A run finds the settings from the working directory and goes on with them. -/
theorem perform_run (c : Command) (w : Machine) :
    c.run.perform w = (Settings.load w.directoryPath >>= c.runWith).perform w := by
  rw [Command.run, perform_bind, perform_workingDirectory?]
  show (require .noWorkingDirectory (some w.directoryPath) >>= _).perform w = _
  rw [require, perform_bind, perform_pure]

/-- A run that generates a module fails before it touches a file, or it has planned a module, and
then it fails because of a file or the compiler, or it writes the module. -/
theorem run_generate_cases {w w' : Machine} {inputs : InputOptions} {o : GenerateOptions}
    {result : Except Failure Unit} (h : (Command.generate inputs o).run.perform w = (result, w')) :
    ((∃ f, result = .error f) ∧ w'.files = w.files) ∨
      ∃ settings spec bindings, IsPlan w inputs o settings spec bindings ∧
        ((result = .error (.notCreated o.output) ∨ (∃ path, result = .error (.notWritten path)) ∨
            ∃ e, result = .error (.compiler e)) ∨
          (result = .ok () ∧
            (o.build = false → IsModuleWritten w.files w'.files w.directory o spec bindings))) := by
  rw [perform_run] at h
  rcases perform_bind_cases h with ⟨f, rfl, hload⟩ | ⟨settings, w₁, hload, h⟩
  · exact .inl ⟨⟨f, rfl⟩, Machine.files_eq ((Settings.onlyLooks_load _).silent_of_perform hload)⟩
  have hw₁ := (Settings.onlyLooks_load _).silent_of_perform hload
  rcases perform_bind_cases h with ⟨f, rfl, hplan⟩ | ⟨⟨spec, bindings⟩, w₂, hplan, h⟩
  · exact .inl ⟨⟨f, rfl⟩,
      Machine.files_eq (((onlyLooks_planModule _ _).silent_of_perform hplan).trans hw₁)⟩
  have hw₂ := ((onlyLooks_planModule _ _).silent_of_perform hplan).trans hw₁
  refine .inr ⟨settings, spec, bindings, isPlan_of_perform (by rw [resultOn, hload]) hw₁ hplan, ?_⟩
  rcases perform_bind_cases h with ⟨f, rfl, hwrite⟩ | ⟨⟨⟩, w₃, hwrite, h⟩
  · rcases of_perform_writeModule hwrite with ⟨hok, -⟩ | hcreate | hfile
    · cases hok
    · exact .inl (.inl hcreate)
    · exact .inl (.inr (.inl hfile))
  have hwritten : IsModuleWritten w.files w₃.files w.directory o spec bindings := by
    rcases of_perform_writeModule hwrite with ⟨-, hwritten⟩ | hcreate | ⟨path, hfile⟩
    · rwa [Machine.files_eq hw₂, Machine.directory_eq hw₂] at hwritten
    · cases hcreate
    · cases hfile
  rcases perform_bind_cases h with ⟨f, rfl, hprint⟩ | ⟨⟨⟩, w₄, hprint, h⟩
  · rw [perform_print] at hprint
    cases hprint
  rw [perform_print] at hprint
  obtain rfl := (Prod.mk.inj hprint).2
  by_cases hbuild : o.build = true
  · simp only [if_pos hbuild] at h
    rcases perform_bind_cases h with ⟨f, rfl, hfail⟩ | ⟨⟨⟩, w₅, -, hhint⟩
    · exact .inl (.inr (.inr (by obtain ⟨e, rfl⟩ := of_perform_buildModule hfail; exact ⟨e, rfl⟩)))
    · rw [perform_print] at hhint
      exact .inr ⟨(Prod.mk.inj hhint).1.symm, fun hno => absurd hbuild (by simp [hno])⟩
  · simp only [if_neg hbuild, perform_print] at h
    obtain ⟨rfl, rfl⟩ := Prod.mk.inj h
    exact .inr ⟨rfl, fun _ => hwritten⟩

/-- A run that generates a module changes files only after it has planned the module.  If it fails
because of settings, inputs or names, the files are as they were.  If it succeeds and builds no
library, it has written the module and changed nothing else. -/
theorem Command.run_generate_outcome {inputs : InputOptions} {o : GenerateOptions} {w w' : Machine}
    {result : Except Failure Unit} (h : (generate inputs o).run.perform w = (result, w')) :
    (w'.files ≠ w.files → ∃ settings spec bindings, IsPlan w inputs o settings spec bindings) ∧
      (∀ f, result = .error f → f.PrecedesWriting w inputs → w'.files = w.files) ∧
      (result = .ok () → o.build = false →
        ∃ settings spec bindings, IsPlan w inputs o settings spec bindings ∧
          IsModuleWritten w.files w'.files w.directory o spec bindings) := by
  rcases run_generate_cases h with ⟨⟨f, rfl⟩, hfiles⟩ | ⟨settings, spec, bindings, hplan, hend⟩
  · exact ⟨fun hchanged => absurd hfiles hchanged, fun _ _ _ => hfiles, nofun⟩
  refine ⟨fun _ => ⟨settings, spec, bindings, hplan⟩, ?_, ?_⟩
  · rintro f rfl hprecedes
    rcases hend with (hcreate | ⟨path, hfile⟩ | ⟨e, hcompiler⟩) | ⟨hok, -⟩
    · cases hcreate
      cases hprecedes
    · cases hfile
      cases hprecedes
    · cases hcompiler
      cases hprecedes with
      | compiler hload hdump =>
        -- the dump was there, as the functions have been named
        obtain rfl := Except.ok.inj (hplan.load.symm.trans hload)
        obtain ⟨dump, _, _, htext, -⟩ := hplan.bindings
        rw [hdump] at htext
        cases htext
    · cases hok
  · rintro rfl hbuild
    rcases hend with (hcreate | ⟨path, hfile⟩ | ⟨e, hcompiler⟩) | ⟨-, hwritten⟩
    · cases hcreate
    · cases hfile
    · cases hcompiler
    · exact ⟨settings, spec, bindings, hplan, hwritten hbuild⟩

/-- A machine whose working directory holds a dump with one function. -/
def Machine.withDump : Machine where
  files := ⟨[(["w"], .directory),
    (["w", "f.ast"], .file (Text.unlines
      ["TranslationUnitDecl 0x1 <<invalid sloc>> <invalid sloc>",
        "`-FunctionDecl 0x2 <f.h:1:1, col:8> col:6 f 'void ()'"]).toUTF8)]⟩
  directory := ["w"]
  programs := Programs.bare
  journal := []
  output := ""

theorem eq_ok_of_isOk {ε : Type} {x : Except ε Unit} (h : x.isOk = true) : x = .ok () := by
  cases x with
  | error e => cases h
  | ok u => rfl

/-- Without a header and a dump nothing is written.  With the dump a module is, into a new
directory. -/
theorem Command.run_generate_withDump :
    ((generate {} {}).run.perform Machine.withDump).2.files = Machine.withDump.files ∧
      ∃ settings spec bindings,
        IsPlan Machine.withDump { astDump := some ⟨"f.ast"⟩ } { output := ⟨"out/py"⟩ } settings spec
            bindings ∧
          IsModuleWritten Machine.withDump.files
            ((generate { astDump := some ⟨"f.ast"⟩ } { output := ⟨"out/py"⟩ }).run.perform
              Machine.withDump).2.files
            Machine.withDump.directory { output := ⟨"out/py"⟩ } spec bindings := by
  constructor
  · exact (run_generate_outcome (Prod.eta _).symm).2.1 .missingModuleName rfl .missingModuleName
  · refine (run_generate_outcome (Prod.eta _).symm).2.2 ?_ rfl
    apply eq_ok_of_isOk
    decide +kernel

end AddressExport
