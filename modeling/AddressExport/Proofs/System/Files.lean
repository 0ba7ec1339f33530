import AddressExport.Proofs.Text.Pieces
import AddressExport.System.Files
import Mathlib.Data.List.Induction

/-!
# What changes of files leave as it was

A path that leads somewhere still does after everything that was there has been kept
(`LeadsTo.of_keeps`).  Making directories and writing files keep everything, and what they change is
told here: one place for a file (`exists_isWritten_of_write`), and for directories only vacant
places that one of the paths leads to (`addsDirectories_makeDirectories`).
-/

namespace AddressExport

/-! ## The end of a path -/

theorem Path.getLast?_join (p : Path) {q : Path} {c : Char} (hq : q.text.toList.getLast? = some c) :
    (p.join q).text.toList.getLast? = some c := by
  unfold join
  by_cases habs : q.isAbsolute = true
  · rw [if_pos habs, hq]
  rw [if_neg habs]
  by_cases hend : p.text = "" ∨ Text.endsWith p.text "/" = true
  · simp [if_pos hend, hq]
  · simp [if_neg hend, List.getLast?_cons, hq]

namespace Node

/-- Whether something is a directory. -/
def isDirectory : Node → Bool
  | file _ => false
  | directory => true

theorem eq_directory {node : Node} (h : node.isDirectory = true) : node = .directory := by
  cases node with
  | file content => cases h
  | directory => rfl

end Node

namespace FileSystem

/-- The last part that is followed keeps the last character of the path. -/
theorem exists_getLast?_steps {p : Path} {c : Char} (hp : p.text.toList.getLast? = some c)
    (hc : c ≠ '/') : ∃ q : List Char, (steps p).getLast? = some (String.ofList (q ++ [c])) := by
  have hparts : ∃ s, p.reversedParts.reverse = Text.splitAll (· == '/') (s ++ [c]) := by
    obtain ⟨s, hs⟩ := List.getLast?_eq_some_iff.1 hp
    unfold Path.reversedParts
    rw [List.reverse_reverse]
    by_cases habs : p.isAbsolute = true
    · rw [if_pos habs]
      cases s with
      | nil =>
        have hhead : '/' = c := by simpa [Path.isAbsolute, Text.startsWith, hs] using habs
        exact absurd hhead.symm hc
      | cons d s => exact ⟨s, by rw [hs]; rfl⟩
    · rw [if_neg habs]
      exact ⟨s, by rw [hs]⟩
  obtain ⟨s, hs⟩ := hparts
  have hslash : (c == '/') = false := by simpa using hc
  obtain ⟨q, hq⟩ := Text.exists_getLast?_splitAll (p := fun d => d == '/') hslash s
  obtain ⟨init, hinit⟩ := List.getLast?_eq_some_iff.1 hq
  refine ⟨q, ?_⟩
  rw [steps, hs, hinit, List.filter_append]
  simp

/-! ## Following a path -/

/-- Whether a part is the name of something in a directory. -/
def IsName (part : String) : Prop :=
  part ≠ "." ∧ part ≠ ".." ∧ part.utf8ByteSize ≤ longestName

/-- Where one part of a path leads from a directory, if it leads to a place. -/
inductive StepsTo (fs : FileSystem) (inner : List String) : String → Destination → Prop
  | here : StepsTo fs inner "." (.found inner .directory)
  | back : StepsTo fs inner ".." (.found inner.dropLast .directory)
  | into {part : String} {node : Node} (hpart : IsName part)
      (hnode : fs.lookup? (inner ++ [part]) = some node) :
      StepsTo fs inner part (.found (inner ++ [part]) node)
  | vacant {part : String} (hpart : IsName part) (hnone : fs.lookup? (inner ++ [part]) = none) :
      StepsTo fs inner part (.vacant (inner ++ [part]))

variable {fs fs' fs'' : FileSystem} {directory names : List String} {p : Path} {node : Node}

theorem stepsTo_step {inner : List String} {part : String}
    (h : fs.step (.found inner .directory) part ≠ .blocked) :
    fs.StepsTo inner part (fs.step (.found inner .directory) part) := by
  rw [step] at h ⊢
  by_cases hhere : part = "."
  · rw [if_pos hhere, hhere]
    exact .here
  rw [if_neg hhere] at h ⊢
  by_cases hback : part = ".."
  · rw [if_pos hback, hback]
    exact .back
  rw [if_neg hback] at h ⊢
  by_cases hsize : longestName < part.utf8ByteSize
  · rw [if_pos hsize] at h
    exact absurd rfl h
  rw [if_neg hsize]
  cases hnode : fs.lookup? (inner ++ [part]) with
  | none => exact .vacant ⟨hhere, hback, Nat.not_lt.1 hsize⟩ hnode
  | some node => exact .into ⟨hhere, hback, Nat.not_lt.1 hsize⟩ hnode

theorem step_of_isName {inner : List String} {part : String} (h : IsName part) :
    fs.step (.found inner .directory) part =
      match fs.lookup? (inner ++ [part]) with
      | some node => .found (inner ++ [part]) node
      | none => .vacant (inner ++ [part]) := by
  obtain ⟨hhere, hback, hsize⟩ := h
  cases hnode : fs.lookup? (inner ++ [part]) with
  | none => rw [step, if_neg hhere, if_neg hback, if_neg (Nat.not_lt.2 hsize), hnode]
  | some node => rw [step, if_neg hhere, if_neg hback, if_neg (Nat.not_lt.2 hsize), hnode]

/-- Parts lead to places only from directories. -/
theorem exists_stepsTo_of_step {reached place : Destination} {part : String}
    (h : fs.step reached part = place) (hmissing : place ≠ .missing) (hblocked : place ≠ .blocked) :
    ∃ inner, reached = .found inner .directory ∧ fs.StepsTo inner part place := by
  subst h
  cases reached with
  | found inner old =>
    cases old with
    | file content => exact absurd rfl hblocked
    | directory => exact ⟨inner, rfl, stepsTo_step hblocked⟩
  | vacant _ => exact absurd rfl hmissing
  | missing => exact absurd rfl hmissing
  | blocked => exact absurd rfl hblocked

/-- Where the parts of a path lead from a directory. -/
def walk (fs : FileSystem) (start parts : List String) : Destination :=
  parts.foldl fs.step (.found start .directory)

theorem walk_append_singleton (fs : FileSystem) (start parts : List String) (part : String) :
    fs.walk start (parts ++ [part]) = fs.step (fs.walk start parts) part := by
  simp [walk]

/-- A walk that does not end where it started has a last part, which leads to its end from a
directory. -/
theorem exists_stepsTo_of_walk {start parts : List String} {place : Destination}
    (h : fs.walk start parts = place) (hstart : place ≠ .found start .directory)
    (hmissing : place ≠ .missing) (hblocked : place ≠ .blocked) :
    ∃ init part inner, parts = init ++ [part] ∧ fs.walk start init = .found inner .directory ∧
      fs.StepsTo inner part place := by
  rcases List.eq_nil_or_concat parts with hnil | ⟨init, part, hparts⟩
  · rw [hnil] at h
    exact absurd h.symm hstart
  · rw [List.concat_eq_append] at hparts
    rw [hparts, walk_append_singleton] at h
    obtain ⟨inner, hinner, hstep⟩ := exists_stepsTo_of_step h hmissing hblocked
    exact ⟨init, part, inner, hparts, hinner, hstep⟩

/-- Whether a path is followed.  One that is too long leads nowhere, and no failure says so. -/
structure IsPath (p : Path) : Prop where
  ne_empty : p.text ≠ ""
  no_zero : '\x00' ∉ p.text.toList
  size_le : p.text.utf8ByteSize ≤ longestPath

instance (p : Path) : Decidable (IsPath p) :=
  decidable_of_iff (p.text ≠ "" ∧ '\x00' ∉ p.text.toList ∧ p.text.utf8ByteSize ≤ longestPath)
    ⟨fun ⟨hne, hzero, hsize⟩ => ⟨hne, hzero, hsize⟩, fun ⟨hne, hzero, hsize⟩ => ⟨hne, hzero, hsize⟩⟩

/-- Where a path starts. -/
def startOf (directory : List String) (p : Path) : List String :=
  if p.isAbsolute then [] else directory

theorem destination_eq (h : IsPath p) :
    fs.destination directory p =
      match fs.walk (startOf directory p) (steps p) with
      | .found names (.file content) =>
        if Text.endsWith p.text "/" then .blocked else .found names (.file content)
      | reached => reached := by
  have hbad : ¬ (p.text.toList.contains '\x00' || longestPath < p.text.utf8ByteSize) = true := by
    simp [h.no_zero, h.size_le]
  rw [destination, if_neg h.ne_empty, if_neg hbad]
  rfl

theorem isPath_of_destination {reached : Destination} (h : fs.destination directory p = reached)
    (hmissing : reached ≠ .missing) (hblocked : reached ≠ .blocked) : IsPath p := by
  rw [destination] at h
  split at h
  · exact absurd h.symm hmissing
  next hne =>
    split at h
    · exact absurd h.symm hblocked
    next hgood =>
      simp only [Bool.or_eq_true, List.contains_iff_mem, decide_eq_true_eq, not_or,
        Nat.not_lt] at hgood
      exact ⟨hne, hgood.1, hgood.2⟩

/-- A path leads to something if its parts do, and it does not end in a slash if that is a file. -/
theorem destination_eq_found_iff :
    fs.destination directory p = .found names node ↔
      IsPath p ∧ fs.walk (startOf directory p) (steps p) = .found names node ∧
        (node.isDirectory = false → Text.endsWith p.text "/" = false) := by
  constructor
  · intro h
    have hp : IsPath p := isPath_of_destination h nofun nofun
    rw [destination_eq hp] at h
    refine ⟨hp, ?_⟩
    split at h
    · next reached content hwalk =>
      split at h
      · cases h
      · next hend => cases h; exact ⟨hwalk, fun _ => by simpa using hend⟩
    · next hfile =>
      refine ⟨h, fun hnode => ?_⟩
      cases node with
      | file content => exact absurd h (hfile names content)
      | directory => cases hnode
  · rintro ⟨hp, hwalk, hend⟩
    rw [destination_eq hp, hwalk]
    cases node with
    | file content => simp [hend rfl]
    | directory => rfl

theorem destination_eq_vacant_iff :
    fs.destination directory p = .vacant names ↔
      IsPath p ∧ fs.walk (startOf directory p) (steps p) = .vacant names := by
  constructor
  · intro h
    have hp : IsPath p := isPath_of_destination h nofun nofun
    rw [destination_eq hp] at h
    refine ⟨hp, ?_⟩
    split at h
    · split at h <;> cases h
    · exact h
  · rintro ⟨hp, hwalk⟩
    rw [destination_eq hp, hwalk]

/-- A file is at its place, under the last part of its path. -/
theorem of_destination_file {content : ByteArray}
    (h : fs.destination directory p = .found names (.file content)) :
    fs.lookup? names = some (.file content) ∧
      ∃ inner part, names = inner ++ [part] ∧ (steps p).getLast? = some part := by
  obtain ⟨_, hwalk, _⟩ := destination_eq_found_iff.1 h
  obtain ⟨parts, part, inner, hparts, -, hstep⟩ := exists_stepsTo_of_walk hwalk nofun nofun nofun
  cases hstep with
  | into hpart hnode => exact ⟨hnode, inner, part, rfl, by simp [hparts]⟩

/-- Files whose paths end in different characters are at different places. -/
theorem places_ne {q : Path} {directory' names' : List String} {content content' : ByteArray}
    {c d : Char} (hp : p.text.toList.getLast? = some c) (hc : c ≠ '/')
    (hq : q.text.toList.getLast? = some d) (hd : d ≠ '/') (hcd : c ≠ d)
    (h : fs.destination directory p = .found names (.file content))
    (h' : fs'.destination directory' q = .found names' (.file content')) : names ≠ names' := by
  intro hsame
  obtain ⟨-, inner, part, rfl, hpart⟩ := of_destination_file h
  obtain ⟨-, inner', part', rfl, hpart'⟩ := of_destination_file h'
  obtain ⟨s, hs⟩ := exists_getLast?_steps hp hc
  obtain ⟨t, ht⟩ := exists_getLast?_steps hq hd
  have hparts : part = part' := (List.append_inj' hsame rfl).2 |> List.cons.inj |>.1
  have htexts : String.ofList (s ++ [c]) = String.ofList (t ++ [d]) := by
    apply Option.some.inj
    rw [← hs, ← ht, hpart, hpart', hparts]
  have hlists : s ++ [c] = t ++ [d] := String.ofList_injective htexts
  exact hcd (List.cons.inj (List.append_inj' hlists rfl).2).1

theorem read?_of_destination {content : ByteArray}
    (h : fs.destination directory p = .found names (.file content)) :
    fs.read? directory p = some content := by
  rw [read?, h]

/-- Nothing is at a vacant place, which is under the last part of its path. -/
theorem of_destination_vacant (h : fs.destination directory p = .vacant names) :
    fs.lookup? names = none ∧
      ∃ inner part, names = inner ++ [part] ∧ (steps p).getLast? = some part := by
  obtain ⟨_, hwalk⟩ := destination_eq_vacant_iff.1 h
  obtain ⟨parts, part, inner, hparts, -, hstep⟩ := exists_stepsTo_of_walk hwalk nofun nofun nofun
  cases hstep with
  | vacant hpart hnone => exact ⟨hnone, inner, part, rfl, by simp [hparts]⟩

/-! ## What is kept -/

/-- Whether all that there is in one file system is in another one, too: directories as directories,
and files as files with whatever content. -/
def Keeps (fs fs' : FileSystem) : Prop :=
  ∀ names node, fs.lookup? names = some node →
    ∃ node', fs'.lookup? names = some node' ∧ node'.isDirectory = node.isDirectory

theorem Keeps.trans (h : fs.Keeps fs') (h' : fs'.Keeps fs'') : fs.Keeps fs'' := by
  intro names node hnode
  obtain ⟨node', hnode', hkind⟩ := h names node hnode
  obtain ⟨node'', hnode'', hkind'⟩ := h' names node' hnode'
  exact ⟨node'', hnode'', hkind'.trans hkind⟩

theorem Keeps.ne_directory (h : fs.Keeps fs') (hnames : fs'.lookup? names ≠ some .directory) :
    fs.lookup? names ≠ some .directory := by
  intro hdirectory
  obtain ⟨node, hnode, hkind⟩ := h names .directory hdirectory
  rw [Node.eq_directory hkind] at hnode
  exact hnames hnode

theorem keeps_put (hnames : names ≠ [])
    (h : ∀ old, fs.lookup? names = some old → node.isDirectory = old.isDirectory) :
    fs.Keeps (fs.put names node) := by
  intro other old hold
  rw [lookup?_put hnames]
  by_cases hother : other = names
  · subst hother
    exact ⟨node, by rw [if_pos rfl], h old hold⟩
  · exact ⟨old, by rw [if_neg hother, hold], rfl⟩

/-- Parts that lead to something go on to lead there. -/
theorem walk_of_keeps (h : fs.Keeps fs') {start parts : List String}
    (hwalk : fs.walk start parts = .found names node) :
    ∃ node', fs'.walk start parts = .found names node' ∧ node'.isDirectory = node.isDirectory := by
  induction parts using List.reverseRecOn generalizing names node with
  | nil => exact ⟨node, hwalk, rfl⟩
  | append_singleton parts part ih =>
    rw [walk_append_singleton] at hwalk
    obtain ⟨inner, hinner, hstep⟩ := exists_stepsTo_of_step hwalk nofun nofun
    obtain ⟨inner', hinner', hkind⟩ := ih hinner
    -- what was a directory on the way still is one, so the next part can be followed from it
    obtain rfl := Node.eq_directory hkind
    rw [walk_append_singleton, hinner']
    cases hstep with
    | here => exact ⟨.directory, rfl, rfl⟩
    | back => exact ⟨.directory, rfl, rfl⟩
    | into hpart hnode =>
      obtain ⟨node', hnode', hkind'⟩ := h _ _ hnode
      exact ⟨node', by rw [step_of_isName hpart, hnode'], hkind'⟩

/-- Whether a path leads to the place with the given names. -/
def LeadsTo (fs : FileSystem) (directory : List String) (p : Path) (names : List String) : Prop :=
  ∃ node, fs.destination directory p = .found names node

theorem destination_of_keeps (h : fs.Keeps fs')
    (hp : fs.destination directory p = .found names node) :
    ∃ node', fs'.destination directory p = .found names node' ∧
      node'.isDirectory = node.isDirectory := by
  obtain ⟨hpath, hwalk, hend⟩ := destination_eq_found_iff.1 hp
  obtain ⟨node', hwalk', hkind⟩ := walk_of_keeps h hwalk
  exact ⟨node', destination_eq_found_iff.2 ⟨hpath, hwalk', fun hnode => hend (hkind ▸ hnode)⟩,
    hkind⟩

/-- Where a path led, it leads after a change that keeps everything. -/
theorem LeadsTo.of_keeps (h : fs.Keeps fs') (hp : fs.LeadsTo directory p names) :
    fs'.LeadsTo directory p names := by
  obtain ⟨node, hnode⟩ := hp
  obtain ⟨node', hnode', _⟩ := destination_of_keeps h hnode
  exact ⟨node', hnode'⟩

/-- A path that led to a vacant place leads to what is put there. -/
theorem destination_put_of_vacant (h : fs.destination directory p = .vacant names)
    (hend : node.isDirectory = false → Text.endsWith p.text "/" = false) :
    (fs.put names node).destination directory p = .found names node := by
  obtain ⟨hnone, _, _, hlast, _⟩ := of_destination_vacant h
  have hne : names ≠ [] := by simp [hlast]
  have hkeeps : fs.Keeps (fs.put names node) := keeps_put hne (by simp [hnone])
  obtain ⟨hpath, hwalk⟩ := destination_eq_vacant_iff.1 h
  refine destination_eq_found_iff.2 ⟨hpath, ?_, hend⟩
  obtain ⟨parts, part, inner, hparts, hinner, hstep⟩ :=
    exists_stepsTo_of_walk hwalk nofun nofun nofun
  obtain ⟨inner', hinner', hkind⟩ := walk_of_keeps hkeeps hinner
  obtain rfl := Node.eq_directory hkind
  cases hstep with
  | vacant hpart hnone =>
    rw [hparts, walk_append_singleton, hinner', step_of_isName hpart, lookup?_put hne, if_pos rfl]

/-! ## Writing a file -/

/-- What a file system is after a text has been written to a path. -/
structure IsWritten (fs fs' : FileSystem) (directory : List String) (p : Path) (content : ByteArray)
    (names : List String) : Prop where
  /-- The place did not hold a directory. -/
  notDirectory : fs.lookup? names ≠ some .directory
  /-- Only that place has changed. -/
  lookup :
    ∀ other, fs'.lookup? other = if other = names then some (.file content) else fs.lookup? other
  /-- The path leads to what has been written. -/
  destination : fs'.destination directory p = .found names (.file content)

theorem IsWritten.keeps {content : ByteArray} (h : IsWritten fs fs' directory p content names) :
    fs.Keeps fs' := by
  intro other old hold
  rw [h.lookup]
  by_cases hother : other = names
  · subst hother
    refine ⟨.file content, by rw [if_pos rfl], ?_⟩
    cases old with
    | file _ => rfl
    | directory => exact absurd hold h.notDirectory
  · exact ⟨old, by rw [if_neg hother, hold], rfl⟩

/-- What has been written stays when another place is written to. -/
theorem IsWritten.destination_of_isWritten {directory' names' : List String} {q : Path}
    {content content' : ByteArray} (h : IsWritten fs fs' directory p content names)
    (h' : IsWritten fs' fs'' directory' q content' names') (hne : names ≠ names') :
    fs''.destination directory p = .found names (.file content) := by
  obtain ⟨node, hnode, hkind⟩ := destination_of_keeps h'.keeps h.destination
  cases node with
  | directory => cases hkind
  | file found =>
    have hfound : fs''.lookup? names = some (.file found) := (of_destination_file hnode).1
    rw [h'.lookup, if_neg hne, h.lookup, if_pos rfl] at hfound
    cases hfound
    exact hnode

/-- Writing to a path that leads to a file or to a vacant place changes that place only. -/
theorem exists_isWritten_of_write {content : ByteArray}
    (h : fs.write directory p content = (fs', true)) :
    ∃ names, IsWritten fs fs' directory p content names := by
  unfold write at h
  split at h
  · next names old hold =>
    cases h
    obtain ⟨hlookup, _, _, hlast, _⟩ := of_destination_file hold
    have hne : names ≠ [] := by simp [hlast]
    refine ⟨names, by simp [hlookup], fun other => lookup?_put hne, ?_⟩
    have hkeeps : fs.Keeps (fs.put names (.file content)) :=
      keeps_put hne fun node hnode => by rw [hlookup] at hnode; cases hnode; rfl
    obtain ⟨node, hnode, hkind⟩ := destination_of_keeps hkeeps hold
    cases node with
    | file new =>
      have hnew := (of_destination_file hnode).1
      rw [lookup?_put hne, if_pos rfl] at hnew
      cases hnew
      exact hnode
    | directory => cases hkind
  · next names hvacant =>
    split at h
    · cases h
    · next hend =>
      cases h
      obtain ⟨hnone, _, _, hlast, _⟩ := of_destination_vacant hvacant
      have hne : names ≠ [] := by simp [hlast]
      exact ⟨names, by simp [hnone], fun other => lookup?_put hne,
        destination_put_of_vacant hvacant fun _ => by simpa using hend⟩
  · cases h

/-! ## Making directories -/

/-- Whether all that changes are vacant places, which become directories that some of the paths lead
to. -/
def AddsDirectories (fs fs' : FileSystem) (directory : List String) (ps : List Path) : Prop :=
  ∀ names, fs'.lookup? names = fs.lookup? names ∨
    (fs.lookup? names = none ∧ fs'.lookup? names = some .directory ∧
      ∃ p ∈ ps, fs'.LeadsTo directory p names)

variable {ps ps' : List Path}

theorem AddsDirectories.refl (fs : FileSystem) (directory : List String) (ps : List Path) :
    AddsDirectories fs fs directory ps :=
  fun _ => .inl rfl

theorem AddsDirectories.mono (h : AddsDirectories fs fs' directory ps) (hps : ps ⊆ ps') :
    AddsDirectories fs fs' directory ps' := by
  intro names
  rcases h names with hsame | ⟨hnone, hnew, p, hp, hleads⟩
  · exact .inl hsame
  · exact .inr ⟨hnone, hnew, p, hps hp, hleads⟩

theorem AddsDirectories.keeps (h : AddsDirectories fs fs' directory ps) : fs.Keeps fs' := by
  intro names node hnode
  rcases h names with hsame | ⟨hnone, -⟩
  · exact ⟨node, by rw [hsame, hnode], rfl⟩
  · rw [hnone] at hnode
    cases hnode

theorem AddsDirectories.trans (h : AddsDirectories fs fs' directory ps)
    (h' : AddsDirectories fs' fs'' directory ps) : AddsDirectories fs fs'' directory ps := by
  intro names
  rcases h' names with hsame' | ⟨hnone', hnew', hleads'⟩
  · rcases h names with hsame | ⟨hnone, hnew, p, hp, hleads⟩
    · exact .inl (hsame'.trans hsame)
    · exact .inr ⟨hnone, hsame'.trans hnew, p, hp, hleads.of_keeps h'.keeps⟩
  · rcases h names with hsame | ⟨-, hnew, -⟩
    · exact .inr ⟨by rw [← hsame, hnone'], hnew', hleads'⟩
    · rw [hnew] at hnone'
      cases hnone'

theorem addsDirectories_makeDirectory (fs : FileSystem) (directory : List String) (p : Path) :
    AddsDirectories fs (fs.makeDirectory directory p).1 directory [p] := by
  unfold makeDirectory
  split
  · next names hvacant =>
    intro other
    obtain ⟨hnone, _, _, hlast, _⟩ := of_destination_vacant hvacant
    have hne : names ≠ [] := by simp [hlast]
    by_cases hother : other = names
    · subst hother
      refine .inr ⟨hnone, by rw [lookup?_put hne, if_pos rfl], p, List.mem_singleton_self p, ?_⟩
      exact ⟨.directory, destination_put_of_vacant hvacant (by simp [Node.isDirectory])⟩
    · exact .inl (by rw [lookup?_put hne, if_neg hother])
  · exact .refl fs directory [p]
  · exact .refl fs directory [p]

/-- Making directories adds only directories that one of the paths leads to. -/
theorem addsDirectories_makeDirectories (fs : FileSystem) (directory : List String)
    (ps : List Path) : AddsDirectories fs (fs.makeDirectories directory ps).1 directory ps := by
  induction ps with
  | nil => exact .refl fs directory []
  | cons p around ih =>
    have hfirst (fs₁ : FileSystem) :
        AddsDirectories fs₁ (fs₁.makeDirectory directory p).1 directory (p :: around) :=
      (addsDirectories_makeDirectory fs₁ directory p).mono (by simp)
    have hrest : AddsDirectories fs (fs.makeDirectories directory around).1 directory
        (p :: around) :=
      ih.mono (List.subset_cons_self p around)
    rw [makeDirectories]
    split
    · exact .refl fs directory (p :: around)
    split
    · split
      · next fs₁ hmade =>
        rw [hmade] at hrest
        exact hrest.trans (hfirst fs₁)
      · next fs₁ hmade =>
        rw [hmade] at hrest
        exact hrest
    · exact hfirst fs

end FileSystem

end AddressExport
