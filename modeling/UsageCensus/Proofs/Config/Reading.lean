import Mathlib.Data.List.Forall2
import UsageCensus.Config
import UsageCensus.Proofs.Attempts

/-!
# Reading a configuration

A document is read as a configuration if it describes one (`IsReadFrom`, `ofDocument_eq_ok`): every
list of texts in the configuration is one in the document, or a default where there is none, and
every combination has a component and two props or more. A document that is not read is refused
with a fault of the configuration, unless one of its paths leads nowhere or one of its names cannot
be shown: neither is checked (`ofDocument_cases`).
-/

namespace UsageCensus.Config

open UsageCensus.Files UsageCensus.Text

variable {follow : Path → Except Fault Place} {surrogates : Surrogates}
  {members : List (String × Document)}

/-! ## What a document describes -/

/-- A member is a list of the texts; where there is none the texts are the default ones. -/
def HasTexts (members : List (String × Document)) (key : String) (default texts : List String) :
    Prop :=
  members.lookup key = none ∧ texts = default ∨
    members.lookup key = some (.list (texts.map .string))

/-- A member is a list of descriptions; where there is none nothing is described. -/
def HasEntries {α : Type} (members : List (String × Document)) (key : String)
    (describes : Document → α → Prop) (values : List α) : Prop :=
  members.lookup key = none ∧ values = [] ∨
    ∃ items, members.lookup key = some (.list items) ∧ List.Forall₂ describes items values

section

variable [Room]

/-- The name of a library, if it is present. -/
def libraryName (surrogates : Surrogates) (members : List (String × Document)) :
    Except Fault String :=
  match (members.lookup "name").filter Document.isPresent with
  | some name => name.tryDisplayWith surrogates
  | none => .ok Tracked.unnamed

/-- The value describes the library. -/
def IsLibrary (surrogates : Surrogates) (value : Document) (library : Library) : Prop :=
  ∃ members, value = .object members ∧ libraryName surrogates members = .ok library.name ∧
    HasTexts members "importSources" [] library.importSources ∧
    HasTexts members "excludeSources" [] library.excludeSources ∧
    HasTexts members "components" [] library.components

/-- The value describes the codebase. -/
def IsCodebase (follow : Path → Except Fault Place) (surrogates : Surrogates) (value : Document)
    (codebase : Codebase) : Prop :=
  ∃ members name path, value = .object members ∧ members.lookup "name" = some name ∧
    members.lookup "path" = some path ∧ name.tryDisplayWith surrogates = .ok codebase.name ∧
    readPlace follow surrogates path = .ok codebase.place

end

/-- The value describes the combination, of two props or more. -/
def IsCombination (value : Document) (combination : PropCombination) : Prop :=
  ∃ members, value = .object members ∧
    members.lookup "component" = some (.string combination.component) ∧
    HasTexts members "props" [] combination.props ∧ 2 ≤ combination.props.length

/-- The members describe which files count. -/
def HasFiles (members : List (String × Document)) (pattern : String) (ignored : List String) :
    Prop :=
  members.lookup "files" = none ∧ pattern = defaultPattern ∧ ignored = defaultIgnored ∨
    ∃ files, members.lookup "files" = some (.object files) ∧
      (files.lookup "pattern" = none ∧ pattern = defaultPattern ∨
        files.lookup "pattern" = some (.string pattern)) ∧
      HasTexts files "ignore" defaultIgnored ignored

section

variable [Room]

/-- The members describe the libraries. -/
def HasLibraries (surrogates : Surrogates) (members : List (String × Document))
    (libraries : List Library) : Prop :=
  (members.lookup "uiLibraries").filter Document.isPresent = none ∧ libraries = [defaultLibrary] ∨
    ∃ items, (members.lookup "uiLibraries").filter Document.isPresent = some (.list items) ∧
      List.Forall₂ (IsLibrary surrogates) items libraries

/-- The members describe the configuration. -/
structure IsReadFrom (follow : Path → Except Fault Place) (surrogates : Surrogates)
    (source : Option Path) (members : List (String × Document)) (config : Config) : Prop where
  libraries : HasLibraries surrogates members config.libraries
  codebases : HasEntries members "codebases" (IsCodebase follow surrogates) config.codebases
  files : HasFiles members config.filePattern config.ignored
  combinations : HasEntries members "propCombos" IsCombination config.combinations
  output : readPlace follow surrogates
    ((members.lookup "outputDir").getD (.string defaultOutput)) = .ok config.output
  source : config.source = source
  surrogates : config.surrogates = surrogates

end

/-! ## What is read -/

theorem texts?_eq_some {items : List Document} {texts : List String} :
    texts? items = some texts ↔ items = texts.map .string := by
  induction items generalizing texts with
  | nil => cases texts <;> simp [texts?]
  | cons item items ih =>
    cases item with
    | string text =>
      cases texts with
      | nil => simp [texts?]
      | cons first texts => simp [texts?, ih]; exact and_comm
    | _ => cases texts <;> simp [texts?]

theorem readTexts_eq_ok {key where_ : String} {texts : List String} :
    readTexts members key where_ = .ok texts ↔ HasTexts members key [] texts := by
  unfold readTexts HasTexts
  cases members.lookup key with
  | none => simp [eq_comm]
  | some value =>
    cases value with
    | list items =>
      dsimp only
      cases htexts : texts? items with
      | none =>
        have hne : items ≠ texts.map .string := fun h => by
          rw [texts?_eq_some.2 h] at htexts
          cases htexts
        simp [fail, hne]
      | some found =>
        rw [texts?_eq_some.1 htexts]
        simp [List.map_inj_right fun _ _ h => Document.string.inj h]
    | _ => simp [fail]

theorem readList_eq_ok {key : String} {items : List Document} :
    readList members key = .ok items
      ↔ members.lookup key = none ∧ items = [] ∨ members.lookup key = some (.list items) := by
  unfold readList
  cases members.lookup key with
  | none => simp [eq_comm]
  | some value => cases value <;> simp [fail]

/-- Where what an entry is read as does not depend on its index. -/
theorem readEntries_eq_ok {α : Type} {read : Document → Nat → Except Fault α}
    {describes : Document → α → Prop}
    (h : ∀ item index value, read item index = .ok value ↔ describes item value)
    {items : List Document} {values : List α} :
    readEntries read items = .ok values ↔ List.Forall₂ describes items values := by
  have hfrom : ∀ (start : Nat) (values : List α),
      (items.zipIdx start).mapM (fun entry => read entry.1 entry.2) = .ok values
        ↔ List.Forall₂ describes items values := by
    induction items with
    | nil =>
      intro start values
      rw [List.forall₂_nil_left_iff, List.zipIdx_nil, List.mapM_nil]
      exact ⟨fun h => (Except.ok.inj h).symm, fun h => congrArg Except.ok h.symm⟩
    | cons item items ih =>
      intro start values
      rw [List.forall₂_cons_left_iff, List.zipIdx_cons, List.mapM_cons, bind_eq_ok]
      constructor
      · rintro ⟨value, hvalue, hread⟩
        obtain ⟨rest, hrest, hvalues⟩ := bind_eq_ok.1 hread
        cases hvalues
        exact ⟨value, rest, (h item start value).1 hvalue, (ih _ rest).1 hrest, rfl⟩
      · rintro ⟨value, rest, hvalue, hrest, rfl⟩
        refine ⟨value, (h item start value).2 hvalue, bind_eq_ok.2 ⟨rest, ?_, rfl⟩⟩
        exact (ih _ rest).2 hrest
  exact hfrom 0 values

@[simp]
theorem liftExcept_except {α : Type} (x : Except Fault α) :
    (liftExcept x : Except Fault α) = x := by
  cases x <;> rfl

section

variable [Room]

theorem readLibrary_object (surrogates : Surrogates) (members : List (String × Document))
    (index : Nat) : readLibrary surrogates (.object members) index = do
      let name ← libraryName surrogates members
      let importSources ← readTexts members "importSources" (entryName "uiLibraries" index)
      let excludeSources ← readTexts members "excludeSources" (entryName "uiLibraries" index)
      let components ← readTexts members "components" (entryName "uiLibraries" index)
      return ⟨name, importSources, excludeSources, components⟩ := by
  unfold readLibrary libraryName
  dsimp only
  cases members.lookup "name" with
  | none => rfl
  | some name =>
    cases hpresent : name.isPresent with
    | true => simp [Option.filter, hpresent]
    | false =>
      simp only [Option.filter, hpresent]
      rfl

theorem readLibrary_eq_ok {value : Document} {index : Nat} {library : Library} :
    readLibrary surrogates value index = .ok library ↔ IsLibrary surrogates value library := by
  unfold IsLibrary
  cases value with
  | object members =>
    simp only [readLibrary_object, bind_eq_ok, readTexts_eq_ok]
    constructor
    · rintro ⟨name, hname, importSources, himport, excludeSources, hexclude, components,
        hcomponents, hlibrary⟩
      cases hlibrary
      exact ⟨members, rfl, hname, himport, hexclude, hcomponents⟩
    · rintro ⟨members', hmembers, hname, himport, hexclude, hcomponents⟩
      cases hmembers
      exact ⟨_, hname, _, himport, _, hexclude, _, hcomponents, rfl⟩
  | _ => simp [readLibrary, fail]

theorem readLibraries_eq_ok {libraries : List Library} :
    readLibraries surrogates members = .ok libraries
      ↔ HasLibraries surrogates members libraries := by
  have hread : ∀ value index library, readLibrary surrogates value index = .ok library
      ↔ IsLibrary surrogates value library := fun _ _ _ => readLibrary_eq_ok
  unfold readLibraries HasLibraries
  cases members.lookup "uiLibraries" with
  | none => simp [eq_comm]
  | some value =>
    cases hpresent : value.isPresent with
    | false => simp [Option.filter, hpresent, eq_comm]
    | true =>
      cases value with
      | list items => simp [Option.filter, hpresent, readEntries_eq_ok hread]
      | _ => simp [Option.filter, hpresent, fail]

theorem readCodebase_eq_ok {value : Document} {index : Nat} {codebase : Codebase} :
    readCodebase follow surrogates value index = .ok codebase
      ↔ IsCodebase follow surrogates value codebase := by
  unfold readCodebase IsCodebase
  cases value with
  | object members =>
    dsimp only
    cases hname : members.lookup "name" with
    | none => simp [fail, hname]
    | some name =>
      cases hpath : members.lookup "path" with
      | none => simp [fail, hname, hpath]
      | some path =>
        simp only [liftExcept_except, bind_eq_ok]
        constructor
        · rintro ⟨text, htext, place, hplace, hcodebase⟩
          cases hcodebase
          exact ⟨members, name, path, rfl, hname, hpath, htext, hplace⟩
        · rintro ⟨members', name', path', hmembers, hname', hpath', htext, hplace⟩
          cases hmembers
          cases hname.symm.trans hname'
          cases hpath.symm.trans hpath'
          exact ⟨_, htext, _, hplace, rfl⟩
  | _ => simp [fail]

end

theorem readCombination_eq_ok {value : Document} {index : Nat} {combination : PropCombination} :
    readCombination value index = .ok combination ↔ IsCombination value combination := by
  unfold readCombination IsCombination
  cases value with
  | object members =>
    dsimp only
    cases hcomponent : members.lookup "component" with
    | none => simp [fail, hcomponent]
    | some component =>
      cases component with
      | string component =>
        simp only [bind_eq_ok, readTexts_eq_ok]
        constructor
        · rintro ⟨props, hprops, hcombination⟩
          by_cases hfew : props.length < 2
          · rw [if_pos hfew] at hcombination
            cases hcombination
          · rw [if_neg hfew] at hcombination
            cases hcombination
            exact ⟨members, rfl, hcomponent, hprops, Nat.le_of_not_lt hfew⟩
        · rintro ⟨members', hmembers, hcomponent', hprops, htwo⟩
          cases hmembers
          cases hcomponent.symm.trans hcomponent'
          refine ⟨_, hprops, ?_⟩
          rw [if_neg (by omega)]
          rfl
      | _ => simp [fail, hcomponent]
  | _ => simp [fail]

/-- The file pattern, by itself. -/
def readPattern (files : List (String × Document)) : Except Fault String :=
  match files.lookup "pattern" with
  | none => .ok defaultPattern
  | some (.string pattern) => .ok pattern
  | some _ => fail (.notText "files.pattern")

/-- The ignored globs, by themselves. -/
def readIgnored (files : List (String × Document)) : Except Fault (List String) :=
  match files.lookup "ignore" with
  | none => .ok defaultIgnored
  | some _ => readTexts files "ignore" "files"

theorem readFiles_object {files : List (String × Document)}
    (h : members.lookup "files" = some (.object files)) :
    readFiles members = do return (← readPattern files, ← readIgnored files) := by
  unfold readFiles readPattern readIgnored
  rw [h]
  dsimp only
  cases files.lookup "pattern" with
  | none => cases files.lookup "ignore" <;> rfl
  | some pattern => cases pattern <;> cases files.lookup "ignore" <;> rfl

theorem readPattern_eq_ok {files : List (String × Document)} {pattern : String} :
    readPattern files = .ok pattern ↔ files.lookup "pattern" = none ∧ pattern = defaultPattern ∨
      files.lookup "pattern" = some (.string pattern) := by
  unfold readPattern
  cases files.lookup "pattern" with
  | none => simp [eq_comm]
  | some value => cases value <;> simp [fail]

theorem readIgnored_eq_ok {files : List (String × Document)} {ignored : List String} :
    readIgnored files = .ok ignored ↔ HasTexts files "ignore" defaultIgnored ignored := by
  unfold readIgnored
  cases hignore : files.lookup "ignore" with
  | none => simp [HasTexts, hignore, eq_comm]
  | some value => simp [readTexts_eq_ok, HasTexts, hignore]

theorem readFiles_eq_ok {pattern : String} {ignored : List String} :
    readFiles members = .ok (pattern, ignored) ↔ HasFiles members pattern ignored := by
  unfold HasFiles
  cases hfiles : members.lookup "files" with
  | none =>
    have hread : readFiles members = .ok (defaultPattern, defaultIgnored) := by
      unfold readFiles
      rw [hfiles]
      rfl
    rw [hread, Except.ok.injEq, Prod.mk.injEq, eq_comm, @eq_comm _ defaultIgnored]
    simp
  | some value =>
    cases value with
    | object files =>
      rw [readFiles_object hfiles]
      simp [bind_eq_ok, readPattern_eq_ok, readIgnored_eq_ok, pure, Except.pure]
    | _ => simp [readFiles, hfiles, fail]

theorem hasEntries_iff {α : Type} {key : String} {describes : Document → α → Prop}
    {values : List α} :
    HasEntries members key describes values
      ↔ ∃ items, readList members key = .ok items ∧ List.Forall₂ describes items values := by
  simp only [HasEntries, readList_eq_ok]
  constructor
  · rintro (⟨hnone, rfl⟩ | ⟨items, hitems, hvalues⟩)
    · exact ⟨[], .inl ⟨hnone, rfl⟩, .nil⟩
    · exact ⟨items, .inr hitems, hvalues⟩
  · rintro ⟨items, ⟨hnone, rfl⟩ | hitems, hvalues⟩
    · exact .inl ⟨hnone, List.forall₂_nil_left_iff.1 hvalues⟩
    · exact .inr ⟨items, hitems, hvalues⟩

/-- A document is read as a configuration if it describes one. -/
theorem ofDocument_eq_ok [Room] {source : Option Path} {document : Document} {config : Config} :
    ofDocument follow surrogates source document = .ok config
      ↔ ∃ members, document = .object members ∧
        IsReadFrom follow surrogates source members config := by
  have hcodebase : ∀ value index codebase,
      readCodebase follow surrogates value index = .ok codebase
        ↔ IsCodebase follow surrogates value codebase := fun _ _ _ => readCodebase_eq_ok
  have hcombination : ∀ value index combination, readCombination value index = .ok combination
      ↔ IsCombination value combination := fun _ _ _ => readCombination_eq_ok
  unfold ofDocument
  cases document with
  | object members =>
    dsimp only
    simp only [liftExcept_except, bind_eq_ok, readLibraries_eq_ok, readEntries_eq_ok hcodebase,
      readEntries_eq_ok hcombination]
    constructor
    · rintro ⟨libraries, hlibraries, items, hitems, codebases, hcodebases, ⟨pattern, ignored⟩,
        hfiles, entries, hentries, combinations, hcombinations, output, houtput, hconfig⟩
      cases hconfig
      exact ⟨members, rfl, hlibraries, hasEntries_iff.2 ⟨items, hitems, hcodebases⟩,
        readFiles_eq_ok.1 hfiles, hasEntries_iff.2 ⟨entries, hentries, hcombinations⟩, houtput,
        rfl, rfl⟩
    · rintro ⟨members', hmembers, h⟩
      cases hmembers
      obtain ⟨items, hitems, hcodebases⟩ := hasEntries_iff.1 h.codebases
      obtain ⟨entries, hentries, hcombinations⟩ := hasEntries_iff.1 h.combinations
      refine ⟨_, h.libraries, items, hitems, _, hcodebases, _, readFiles_eq_ok.2 h.files, entries,
        hentries, _, hcombinations, _, h.output, ?_⟩
      rw [← h.source, ← h.surrogates]
      rfl
  | _ => simp [fail]

/-! ## Faults -/

/-- The fault says what is wrong with the configuration. -/
def IsConfigFault (fault : Fault) : Prop := ∃ config, fault = .config config

/-- The path that a value is. -/
def pathOf? : Document → Option Path
  | .string text => some (.ofText text)
  | .path path => some path
  | _ => none

/-- Why a value is no path that leads to a place. -/
inductive IsPathFault (follow : Path → Except Fault Place) (surrogates : Surrogates)
    (value : Document) : Fault → Prop where
  | wrongKind (h : pathOf? value = none) : IsPathFault follow surrogates value .wrongKind
  | unencodable {path : Path} {name : String} (h : pathOf? value = some path)
      (hname : name ∈ path.names) (hstray : Path.hasStraySurrogate surrogates name = true) :
      IsPathFault follow surrogates value .unencodable
  | unusable {path : Path} {name : String} (h : pathOf? value = some path)
      (hname : name ∈ path.names) (hnull : Path.hasNull name = true) :
      IsPathFault follow surrogates value .unusablePath
  | unfollowed {path : Path} {fault : Fault} (h : pathOf? value = some path)
      (hfollow : follow path = .error fault) : IsPathFault follow surrogates value fault

/-- The value stands for a path: that of a codebase, or that of the output. -/
inductive IsPathIn (members : List (String × Document)) : Document → Prop where
  | codebase {items : List Document} {codebase : List (String × Document)} {value : Document}
      (hitems : members.lookup "codebases" = some (.list items)) (hitem : .object codebase ∈ items)
      (hvalue : codebase.lookup "path" = some value) : IsPathIn members value
  | output : IsPathIn members ((members.lookup "outputDir").getD (.string defaultOutput))

/-- The value stands for a name: that of a library, or that of a codebase. -/
inductive IsNameIn (members : List (String × Document)) : Document → Prop where
  | library {items : List Document} {library : List (String × Document)} {value : Document}
      (hitems : members.lookup "uiLibraries" = some (.list items)) (hitem : .object library ∈ items)
      (hvalue : library.lookup "name" = some value) : IsNameIn members value
  | codebase {items : List Document} {codebase : List (String × Document)} {value : Document}
      (hitems : members.lookup "codebases" = some (.list items)) (hitem : .object codebase ∈ items)
      (hvalue : codebase.lookup "name" = some value) : IsNameIn members value

theorem faultsIn_fail {α : Type} (fault : ConfigFault) :
    FaultsIn IsConfigFault (fail fault : Except Fault α) := faultsIn_error ⟨fault, rfl⟩

theorem faultsIn_readTexts (members : List (String × Document)) (key where_ : String) :
    FaultsIn IsConfigFault (readTexts members key where_) := by
  unfold readTexts
  split
  · exact faultsIn_ok _ _
  · split
    · exact faultsIn_ok _ _
    · exact faultsIn_fail _
  · exact faultsIn_fail _

theorem faultsIn_readList (members : List (String × Document)) (key : String) :
    FaultsIn IsConfigFault (readList members key) := by
  unfold readList
  split
  · exact faultsIn_ok _ _
  · exact faultsIn_ok _ _
  · exact faultsIn_fail _

theorem faultsIn_readEntries {α : Type} {p : Fault → Prop}
    {read : Document → Nat → Except Fault α} {items : List Document}
    (h : ∀ item ∈ items, ∀ index, FaultsIn p (read item index)) :
    FaultsIn p (readEntries read items) := by
  apply faultsIn_mapM
  rintro ⟨item, index⟩ hentry
  exact h item (List.fst_mem_of_mem_zipIdx hentry) index

section

variable [Room]

/-- Why a document is not read as a configuration. -/
inductive IsReadingFault (follow : Path → Except Fault Place) (surrogates : Surrogates)
    (members : List (String × Document)) (fault : Fault) : Prop where
  | config (h : IsConfigFault fault) : IsReadingFault follow surrogates members fault
  | path {value : Document} (hvalue : IsPathIn members value)
      (h : IsPathFault follow surrogates value fault) :
      IsReadingFault follow surrogates members fault
  | name {value : Document} (hvalue : IsNameIn members value)
      (h : value.tryDisplayWith surrogates = .error fault) :
      IsReadingFault follow surrogates members fault

theorem faultsIn_ofConfig {α : Type} {x : Except Fault α} (h : FaultsIn IsConfigFault x) :
    FaultsIn (IsReadingFault follow surrogates members) x := h.mono fun _ => .config

theorem faultsIn_libraryName {items : List Document} {library : List (String × Document)}
    (hitems : members.lookup "uiLibraries" = some (.list items)) (hitem : .object library ∈ items) :
    FaultsIn (IsReadingFault follow surrogates members) (libraryName surrogates library) := by
  unfold libraryName
  split
  · rename_i name hname
    obtain ⟨hvalue, -⟩ := Option.filter_eq_some_iff.1 hname
    exact fun fault hfault => .name (.library hitems hitem hvalue) hfault
  · exact faultsIn_ok _ _

theorem faultsIn_readLibrary {items : List Document} {value : Document}
    (hitems : members.lookup "uiLibraries" = some (.list items)) (hitem : value ∈ items)
    (index : Nat) :
    FaultsIn (IsReadingFault follow surrogates members) (readLibrary surrogates value index) := by
  cases value with
  | object library =>
    rw [readLibrary_object]
    apply (faultsIn_libraryName hitems hitem).bind
    intro name _
    apply (faultsIn_ofConfig (faultsIn_readTexts _ _ _)).bind
    intro importSources _
    apply (faultsIn_ofConfig (faultsIn_readTexts _ _ _)).bind
    intro excludeSources _
    apply (faultsIn_ofConfig (faultsIn_readTexts _ _ _)).bind
    exact fun components _ => faultsIn_ok _ _
  | _ => exact faultsIn_ofConfig (faultsIn_fail _)

theorem faultsIn_readLibraries :
    FaultsIn (IsReadingFault follow surrogates members) (readLibraries surrogates members) := by
  unfold readLibraries
  split
  · exact faultsIn_ok _ _
  · rename_i value hvalue
    split
    · split
      · exact faultsIn_readEntries fun item hitem index => faultsIn_readLibrary hvalue hitem index
      · exact faultsIn_ofConfig (faultsIn_fail _)
    · exact faultsIn_ok _ _

end

theorem faultsIn_readCombination (value : Document) (index : Nat) :
    FaultsIn IsConfigFault (readCombination value index) := by
  unfold readCombination
  split
  · split
    · apply (faultsIn_readTexts _ _ _).bind
      intro props _
      split
      · exact faultsIn_fail _
      · exact faultsIn_ok _ _
    · exact faultsIn_fail _
  · exact faultsIn_fail _

theorem faultsIn_readFiles (members : List (String × Document)) :
    FaultsIn IsConfigFault (readFiles members) := by
  cases hfiles : members.lookup "files" with
  | none =>
    unfold readFiles
    rw [hfiles]
    exact faultsIn_ok _ _
  | some value =>
    cases value with
    | object files =>
      rw [readFiles_object hfiles]
      have hpattern : FaultsIn IsConfigFault (readPattern files) := by
        unfold readPattern
        split
        · exact faultsIn_ok _ _
        · exact faultsIn_ok _ _
        · exact faultsIn_fail _
      have hignored : FaultsIn IsConfigFault (readIgnored files) := by
        unfold readIgnored
        split
        · exact faultsIn_ok _ _
        · exact faultsIn_readTexts _ _ _
      apply hpattern.bind
      intro pattern _
      apply hignored.bind
      exact fun ignored _ => faultsIn_ok _ _
    | _ =>
      unfold readFiles
      rw [hfiles]
      exact faultsIn_fail _

theorem faultsIn_readPlace (follow : Path → Except Fault Place) (surrogates : Surrogates)
    (value : Document) :
    FaultsIn (IsPathFault follow surrogates value) (readPlace follow surrogates value) := by
  have hnamed : ∀ path, pathOf? value = some path →
      FaultsIn (IsPathFault follow surrogates value)
        (readPlace.followNamed follow surrogates path) := by
    intro path hpath
    unfold readPlace.followNamed
    split
    · rename_i fault hfault
      obtain ⟨name, hname, hfault⟩ := List.exists_of_findSome?_eq_some hfault
      apply faultsIn_error
      unfold nameFault? at hfault
      split at hfault
      · rename_i hstray
        cases hfault
        exact .unencodable hpath hname hstray
      · split at hfault
        · rename_i hnull
          cases hfault
          exact .unusable hpath hname hnull
        · cases hfault
    · exact fun fault hfault => .unfollowed hpath hfault
  cases value with
  | string text => exact hnamed _ rfl
  | path path => exact hnamed _ rfl
  | _ => exact faultsIn_error (.wrongKind rfl)

section

variable [Room]

theorem faultsIn_readCodebase {items : List Document} {value : Document}
    (hitems : members.lookup "codebases" = some (.list items)) (hitem : value ∈ items)
    (index : Nat) :
    FaultsIn (IsReadingFault follow surrogates members)
      (readCodebase follow surrogates value index) := by
  unfold readCodebase
  simp only [liftExcept_except]
  split
  · split
    · rename_i name path hname hpath
      have htext : FaultsIn (IsReadingFault follow surrogates members)
          (name.tryDisplayWith surrogates) :=
        fun fault hfault => .name (.codebase hitems hitem hname) hfault
      apply htext.bind
      intro text _
      apply ((faultsIn_readPlace follow surrogates path).mono fun fault hfault =>
        IsReadingFault.path (.codebase hitems hitem hpath) hfault).bind
      exact fun place _ => faultsIn_ok _ _
    · exact faultsIn_ofConfig (faultsIn_fail _)
  · exact faultsIn_ofConfig (faultsIn_fail _)

theorem faultsIn_ofDocument_object (source : Option Path) :
    FaultsIn (IsReadingFault follow surrogates members)
      (ofDocument follow surrogates source (.object members)) := by
  unfold ofDocument
  simp only [liftExcept_except]
  apply faultsIn_readLibraries.bind
  intro libraries _
  apply (faultsIn_ofConfig (faultsIn_readList members "codebases")).bind
  intro items hitems
  have hcodebases : FaultsIn (IsReadingFault follow surrogates members)
      (readEntries (readCodebase follow surrogates) items) := by
    apply faultsIn_readEntries
    intro item hitem index
    rcases readList_eq_ok.1 hitems with ⟨-, rfl⟩ | hlist
    · cases hitem
    · exact faultsIn_readCodebase hlist hitem index
  apply hcodebases.bind
  intro codebases _
  apply (faultsIn_ofConfig (faultsIn_readFiles members)).bind
  rintro ⟨pattern, ignored⟩ _
  apply (faultsIn_ofConfig (faultsIn_readList members "propCombos")).bind
  intro entries _
  have hcombinations : FaultsIn IsConfigFault (readEntries readCombination entries) :=
    faultsIn_readEntries fun item _ index => faultsIn_readCombination item index
  apply (faultsIn_ofConfig hcombinations).bind
  intro combinations _
  apply ((faultsIn_readPlace follow surrogates
    ((members.lookup "outputDir").getD (.string defaultOutput))).mono fun fault hfault =>
      IsReadingFault.path .output hfault).bind
  exact fun output _ => faultsIn_ok _ _

/-- A document is read as the configuration that it describes, or refused for what is wrong with
it as a configuration, or one of its paths leads nowhere, or one of its names cannot be shown. -/
theorem ofDocument_cases (follow : Path → Except Fault Place) (surrogates : Surrogates)
    (source : Option Path) (document : Document) :
    (∃ config members, ofDocument follow surrogates source document = .ok config ∧
      document = .object members ∧ IsReadFrom follow surrogates source members config) ∨
    (∃ fault, ofDocument follow surrogates source document = .error (.config fault)) ∨
    (∃ members value fault, ofDocument follow surrogates source document = .error fault ∧
      document = .object members ∧ IsPathIn members value ∧
      IsPathFault follow surrogates value fault) ∨
    ∃ members value fault, ofDocument follow surrogates source document = .error fault ∧
      document = .object members ∧ IsNameIn members value ∧
      value.tryDisplayWith surrogates = .error fault := by
  cases hread : ofDocument follow surrogates source document with
  | ok config =>
    obtain ⟨members, hdocument, hmembers⟩ := ofDocument_eq_ok.1 hread
    exact .inl ⟨config, members, rfl, hdocument, hmembers⟩
  | error fault =>
    cases document with
    | object members =>
      cases faultsIn_ofDocument_object source fault hread with
      | config h =>
        obtain ⟨config, rfl⟩ := h
        exact .inr (.inl ⟨config, rfl⟩)
      | path hvalue h => exact .inr (.inr (.inl ⟨members, _, fault, rfl, rfl, hvalue, h⟩))
      | name hvalue h => exact .inr (.inr (.inr ⟨members, _, fault, rfl, rfl, hvalue, h⟩))
    | _ =>
      cases hread
      exact .inr (.inl ⟨.rootNotObject, rfl⟩)

end

/-- A number in the place of a path is not reported as a fault of the configuration. -/
theorem ofDocument_path_five :
    let _ : Room := .ofSize 1000 (by decide)
    let follow : Path → Except Fault Place := fun path => .ok (path.resolve [])
    ofDocument follow .none none (.object [("codebases", .list [.object [("name", .string "a"),
      ("path", .int 5)]])]) = .error .wrongKind ∧ ¬IsConfigFault .wrongKind := by
  refine ⟨rfl, ?_⟩
  rintro ⟨fault, h⟩
  cases h

end UsageCensus.Config
