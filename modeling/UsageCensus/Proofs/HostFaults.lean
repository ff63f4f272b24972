import UsageCensus.Config.Load
import UsageCensus.Proofs.Attempts
import UsageCensus.Proofs.Files.Writing
import UsageCensus.Proofs.Text.Surrogates

/-!
# Faults of the host

A program that only looks at a sandbox leaves it as it was (`OnlyLooks`). A program that writes
texts and shows lines raises no fault but those of its host (`IsHostFault`): what stands in the way
on the disk, a character that cannot be encoded, and a line that there is no room for. Either is
shown for a whole program by what is said of its steps.
-/

namespace UsageCensus

open UsageCensus.Files UsageCensus.Text

/-- What the host can raise where a text is written or a line is shown: an obstacle on the disk, a
stand-in for a surrogate, a character that the console lacks, or a width that is too large. -/
inductive IsHostFault (surrogates : Surrogates) (console : Console) : Fault → Prop where
  | disk (path : Path) (obstacle : Tree.Obstacle) :
      IsHostFault surrogates console (obstacle.toFault path)
  | surrogate (h : surrogates ≠ .none) : IsHostFault surrogates console .unencodable
  | console (h : console.asciiOnly = true) : IsHostFault surrogates console .unencodable
  | width : IsHostFault surrogates console .tooLarge
  | room : IsHostFault surrogates console .noRoom

namespace Sandbox

variable {α β : Type} {x : SandboxM α} {f : α → SandboxM β}

/-! ## Programs that only look -/

/-- The program leaves every sandbox as it is. -/
def OnlyLooks (x : SandboxM α) : Prop := ∀ s, (run x s).2 = s

theorem OnlyLooks.bind (hx : OnlyLooks x) (hf : ∀ a, OnlyLooks (f a)) : OnlyLooks (x >>= f) := by
  intro s
  have hbetween := hx s
  rw [run_bind]
  rcases hrun : run x s with ⟨_ | a, between⟩
  · rw [hrun] at hbetween
    exact hbetween
  · rw [hrun] at hbetween
    exact (hf a between).trans hbetween

theorem onlyLooks_pure (a : α) : OnlyLooks (pure a) := fun _ => rfl

theorem onlyLooks_throw (fault : Fault) : OnlyLooks (throw fault : SandboxM α) := fun _ => rfl

theorem OnlyLooks.mapM {items : List α} (hf : ∀ a, OnlyLooks (f a)) :
    OnlyLooks (items.mapM f) := by
  induction items with
  | nil => exact onlyLooks_pure []
  | cons a items ih =>
    rw [List.mapM_cons]
    exact (hf a).bind fun b => ih.bind fun rest => onlyLooks_pure (b :: rest)

/-- What is left is what was there, so the outcome is the whole run. -/
theorem OnlyLooks.run_eq (h : OnlyLooks x) {s : Sandbox} {outcome : Except Fault α}
    (hrun : (run x s).1 = outcome) : run x s = (outcome, s) := Prod.ext hrun (h s)

end Sandbox

namespace Config

open Sandbox (OnlyLooks onlyLooks_pure onlyLooks_throw)

/-! ## Loading a configuration -/

theorem onlyLooks_liftExcept {α : Type} (x : Except Fault α) :
    OnlyLooks (liftExcept x : SandboxM α) := by
  cases x with
  | ok a => exact onlyLooks_pure a
  | error fault => exact onlyLooks_throw fault

section

variable {follow : Path → SandboxM Place} (hfollow : ∀ path, OnlyLooks (follow path))
include hfollow

theorem onlyLooks_readPlace (surrogates : Surrogates) (value : Document) :
    OnlyLooks (readPlace follow surrogates value) := by
  have hnamed (path : Path) : OnlyLooks (readPlace.followNamed follow surrogates path) := by
    unfold readPlace.followNamed
    split
    · exact onlyLooks_throw _
    · exact hfollow path
  unfold readPlace
  split
  · exact hnamed _
  · exact hnamed _
  · exact onlyLooks_throw _

theorem onlyLooks_readCodebase [Room] (surrogates : Surrogates) (value : Document) (index : Nat) :
    OnlyLooks (readCodebase follow surrogates value index) := by
  unfold readCodebase
  dsimp only
  split
  · split
    · refine (onlyLooks_liftExcept _).bind fun name => ?_
      exact (onlyLooks_readPlace hfollow surrogates _).bind fun place => onlyLooks_pure _
    · exact onlyLooks_liftExcept _
  · exact onlyLooks_liftExcept _

/-- Reading a document as a configuration only looks where following its paths does. -/
theorem onlyLooks_ofDocument [Room] (surrogates : Surrogates) (source : Option Path)
    (document : Document) : OnlyLooks (ofDocument follow surrogates source document) := by
  unfold ofDocument
  split
  · refine (onlyLooks_liftExcept _).bind fun libraries => ?_
    refine (onlyLooks_liftExcept _).bind fun entries => ?_
    refine OnlyLooks.bind ?_ fun codebases => ?_
    · exact OnlyLooks.mapM fun entry => onlyLooks_readCodebase hfollow surrogates entry.1 entry.2
    refine (onlyLooks_liftExcept _).bind fun files => ?_
    refine (onlyLooks_liftExcept _).bind fun entries => ?_
    refine (onlyLooks_liftExcept _).bind fun combinations => ?_
    exact (onlyLooks_readPlace hfollow surrogates _).bind fun output => onlyLooks_pure _
  · exact onlyLooks_liftExcept _

end

end Config

namespace Sandbox

section

variable [Room]

theorem onlyLooks_kindAt (path : Path) : OnlyLooks (Host.kindAt path) := fun s => by rw [run_kindAt]

theorem onlyLooks_readFile (path : Path) : OnlyLooks (Host.readFile path) :=
  fun s => by rw [run_readFile]

theorem onlyLooks_here : OnlyLooks Host.here := fun _ => rfl

theorem onlyLooks_follow (place : Place) (path : Path) : OnlyLooks (Host.follow place path) :=
  fun _ => rfl

theorem onlyLooks_firstFile? (places : List Place) : OnlyLooks (Config.firstFile? places) := by
  induction places with
  | nil => exact onlyLooks_pure none
  | cons place places ih =>
    unfold Config.firstFile?
    apply (onlyLooks_kindAt _).bind
    intro kind
    split
    · exact onlyLooks_pure _
    · exact ih

theorem onlyLooks_loadFrom (path : Path) : OnlyLooks (Config.loadFrom path) := by
  unfold Config.loadFrom
  apply (onlyLooks_readFile path).bind
  intro content
  split
  · exact onlyLooks_throw _
  · dsimp only
    split
    · exact onlyLooks_throw _
    · exact onlyLooks_throw _
    · apply onlyLooks_here.bind
      intro here
      apply (onlyLooks_follow here path).bind
      intro place
      exact Config.onlyLooks_ofDocument (onlyLooks_follow _) _ _ _

/-- Loading a configuration only looks. -/
theorem onlyLooks_load (choice : Config.Choice) : OnlyLooks (Config.load choice) := by
  unfold Config.load
  split
  · apply (onlyLooks_kindAt _).bind
    intro kind
    split
    · exact onlyLooks_throw _
    · exact onlyLooks_loadFrom _
  · exact onlyLooks_throw _
  · apply onlyLooks_here.bind
    intro here
    apply (onlyLooks_firstFile? _).bind
    intro found
    split
    · exact onlyLooks_loadFrom _
    · exact Config.onlyLooks_ofDocument (onlyLooks_follow _) _ _ _

end

/-! ## Programs that raise some faults only -/

/-- On the console, the program leaves this as it is, and its faults have the property. -/
def RaisesOnly (console : Console) (p : Fault → Prop) (x : SandboxM α) : Prop :=
  ∀ s : Sandbox, s.console = console →
    (run x s).2.console = console ∧ ∀ fault, (run x s).1 = .error fault → p fault

variable {console : Console} {p : Fault → Prop}

theorem RaisesOnly.bind (hx : RaisesOnly console p x) (hf : ∀ a, RaisesOnly console p (f a)) :
    RaisesOnly console p (x >>= f) := by
  intro s hs
  obtain ⟨hbetween, hfault⟩ := hx s hs
  rw [run_bind]
  rcases hrun : run x s with ⟨fault | a, between⟩
  · rw [hrun] at hbetween hfault
    refine ⟨hbetween, fun other hother => ?_⟩
    cases hother
    exact hfault fault rfl
  · rw [hrun] at hbetween
    exact hf a between hbetween

theorem RaisesOnly.catch {handle : Fault → SandboxM α} (hx : RaisesOnly console p x)
    (hhandle : ∀ fault, p fault → RaisesOnly console p (handle fault)) :
    RaisesOnly console p (tryCatch x handle) := by
  intro s hs
  obtain ⟨hbetween, hfault⟩ := hx s hs
  rw [run_catch]
  rcases hrun : run x s with ⟨fault | a, between⟩
  · rw [hrun] at hbetween hfault
    exact hhandle fault (hfault fault rfl) between hbetween
  · rw [hrun] at hbetween
    exact ⟨hbetween, nofun⟩

theorem raisesOnly_pure (a : α) : RaisesOnly console p (pure a) := fun _ hs => ⟨hs, nofun⟩

theorem raisesOnly_throw {fault : Fault} (h : p fault) :
    RaisesOnly console p (throw fault : SandboxM α) := by
  intro s hs
  refine ⟨hs, fun other hother => ?_⟩
  cases hother
  exact h

theorem raisesOnly_lift [Room] {x : Except Fault α} (h : FaultsIn p x) :
    RaisesOnly console p (Host.lift x) := by
  intro s hs
  rw [run_lift]
  exact ⟨hs, h⟩

theorem RaisesOnly.forM {γ : Type} {step : γ → SandboxM Unit} {items : List γ}
    (h : ∀ item ∈ items, RaisesOnly console p (step item)) :
    RaisesOnly console p (items.forM step) := by
  induction items with
  | nil => exact raisesOnly_pure ()
  | cons item items ih =>
    exact (h item List.mem_cons_self).bind fun _ =>
      ih fun item hitem => h item (List.mem_cons_of_mem _ hitem)

/-! ## Writing and showing -/

section

variable {surrogates : Surrogates}

theorem raisesOnly_change (path : Path)
    (step : Tree → Place → Except Tree.Obstacle Tree) :
    RaisesOnly console (IsHostFault surrogates console) (change path step) := by
  intro s hs
  rw [run_change]
  split
  · exact ⟨hs, nofun⟩
  · refine ⟨hs, fun fault hfault => ?_⟩
    cases hfault
    exact .disk path _

section

variable [Room]

theorem raisesOnly_makeDirectories (path : Path) : RaisesOnly console
    (IsHostFault surrogates console) (Host.makeDirectories path : SandboxM Unit) := by
  intro s hs
  rw [run_makeDirectories]
  refine ⟨hs, fun fault hfault => ?_⟩
  dsimp only at hfault
  split at hfault
  · cases hfault
    exact .disk path _
  · cases hfault

theorem raisesOnly_makeDraft (path : Path) : RaisesOnly console
    (IsHostFault surrogates console) (Host.makeDraft path : SandboxM Path) := by
  intro s hs
  rw [run_makeDraft]
  split
  · exact ⟨hs, nofun⟩
  · refine ⟨hs, fun fault hfault => ?_⟩
    cases hfault
    exact .disk path _

theorem raisesOnly_encodable (text : String) : RaisesOnly console
    (IsHostFault surrogates console) (Host.encodable surrogates text : SandboxM String) := by
  unfold Host.encodable
  split
  · rename_i hoccur
    apply raisesOnly_throw
    apply IsHostFault.surrogate
    rintro rfl
    exact absurd hoccur (ne_true_of_eq_false (occurIn_none _))
  · exact raisesOnly_pure text

theorem raisesOnly_writeEncoded (path : Path) (text : String) : RaisesOnly console
    (IsHostFault surrogates console) (writeEncoded surrogates path text : SandboxM Unit) := by
  unfold writeEncoded
  apply (raisesOnly_encodable text).bind
  intro text
  exact raisesOnly_change path _

theorem raisesOnly_writeDraft (path : Path) (text : String) : RaisesOnly console
    (IsHostFault surrogates console) (writeDraft surrogates path text : SandboxM Unit) := by
  unfold writeDraft
  apply (raisesOnly_encodable text).bind
  intro text
  exact raisesOnly_change path _

/-- Writing a text raises faults of the host only. -/
theorem raisesOnly_writeText (path : Path) (text : String) : RaisesOnly console
    (IsHostFault surrogates console) (writeText surrogates path text : SandboxM Unit) := by
  have hremove (draft : Path) : RaisesOnly console (IsHostFault surrogates console)
      (removeDraft draft : SandboxM Unit) := by
    apply RaisesOnly.catch (raisesOnly_change draft _)
    intro fault hfault
    split
    · exact raisesOnly_pure ()
    · exact raisesOnly_throw hfault
  unfold writeText
  apply (raisesOnly_makeDirectories _).bind
  intro _
  apply (raisesOnly_makeDraft _).bind
  intro draft
  apply RaisesOnly.catch
  · apply (raisesOnly_writeDraft draft text).bind
    intro _
    exact raisesOnly_change path _
  · intro fault hfault
    split
    · exact (hremove draft).bind fun _ => raisesOnly_writeEncoded path text
    · exact raisesOnly_throw hfault

theorem raisesOnly_put (line : Line) : RaisesOnly console
    (IsHostFault surrogates console) (Host.put line : SandboxM Unit) := by
  intro s hs
  unfold Host.put
  rw [run_bind, run_console]
  dsimp only
  split
  · exact ⟨hs, nofun⟩
  · rename_i hshown
    refine ⟨hs, fun fault hfault => ?_⟩
    cases hfault
    have hlacks : ¬ s.console.canShow (line.paint s.console line.text) = true :=
      List.find?_eq_none.1 hshown _ List.mem_cons_self
    apply IsHostFault.console
    rw [Console.canShow, hs, Bool.or_eq_true, not_or, Bool.not_eq_true', Bool.not_eq_false]
      at hlacks
    exact hlacks.1

end

/-! ## Tables -/

open ConsoleTable

theorem faultsIn_charactersIn (width : Int) :
    FaultsIn (IsHostFault surrogates console) (charactersIn width) := by
  unfold charactersIn
  split
  · exact faultsIn_error .width
  · split
    · exact faultsIn_error .room
    · exact faultsIn_ok _ _

theorem faultsIn_formatRow (columns : List Column) (cells : List Document) :
    FaultsIn (IsHostFault surrogates console) (formatRow columns cells) := by
  unfold formatRow
  refine FaultsIn.bind (faultsIn_mapM fun entry _ => ?_) fun texts _ => faultsIn_ok _ _
  exact (faultsIn_charactersIn _).bind fun width _ => faultsIn_ok _ _

theorem faultsIn_headerRule (widths : List Int) :
    FaultsIn (IsHostFault surrogates console) (headerRule widths) := by
  unfold headerRule ruleTexts
  refine FaultsIn.bind ?_ fun texts _ => faultsIn_ok _ _
  exact (faultsIn_charactersIn _).bind fun width _ => faultsIn_ok _ _

theorem exists_isNumericColumn {column : Nat} {rows : List (List Document)}
    (h : ∀ row ∈ rows, column < row.length) :
    ∃ isNumeric, isNumericColumn column rows = .ok isNumeric := by
  induction rows with
  | nil => exact ⟨true, rfl⟩
  | cons row rows ih =>
    have hcolumn := h row List.mem_cons_self
    have hcell : cellAt column row = .ok row[column].display := by
      rw [cellAt, List.getElem?_eq_getElem hcolumn]
    rw [isNumericColumn, hcell]
    change ∃ isNumeric, (if isNumericCell _ = true then isNumericColumn column rows else .ok false)
      = .ok isNumeric
    split
    · exact ih fun row hrow => h row (List.mem_cons_of_mem _ hrow)
    · exact ⟨false, rfl⟩

theorem exists_columnWidth {column : Nat} {rows : List (List Document)} (header : Document)
    (h : ∀ row ∈ rows, column < row.length) :
    ∃ width, columnWidth rows header column = .ok width := by
  refine exists_bind_pure_eq_ok.2 (exists_mapM fun row hrow => ?_)
  rw [cellAt, List.getElem?_eq_getElem (h row hrow)]
  exact ⟨_, rfl⟩

/-- A table whose rows are as long as its headers can be drawn, line by line where there is room. -/
theorem exists_lines (surrogates : Surrogates) (console : Console) {headers : List Document}
    {rows : List (List Document)} (h : ∀ row ∈ rows, row.length = headers.length) :
    ∃ lines, ConsoleTable.lines headers rows [] = .ok lines ∧
      ∀ line ∈ lines, FaultsIn (IsHostFault surrogates console) line := by
  unfold ConsoleTable.lines
  split
  · exact ⟨[], rfl, nofun⟩
  · have hcolumn {column : Nat} (hcolumn : column < headers.length) :
        ∀ row ∈ rows, column < row.length := fun row hrow => by rw [h row hrow]; exact hcolumn
    obtain ⟨widths, hwidths⟩ : ∃ widths, headers.zipIdx.mapM (fun entry => do
        return Int.ofNat (← columnWidth rows entry.1 entry.2)) = (.ok widths : Except Fault _) := by
      apply exists_mapM
      rintro ⟨header, column⟩ hentry
      have hlt := (List.mem_zipIdx' hentry).1
      exact exists_bind_pure_eq_ok.2 (exists_columnWidth header (hcolumn hlt))
    obtain ⟨numeric, hnumeric⟩ : ∃ numeric, (List.range headers.length).mapM
        (fun column => isNumericColumn column rows) = .ok numeric :=
      exists_mapM fun column hmem => exists_isNumericColumn (hcolumn (List.mem_range.1 hmem))
    let columns := List.zipWith Column.mk widths numeric
    have hlines : (do
        let widths ← headers.zipIdx.mapM fun entry => do
          return Int.ofNat (← columnWidth rows entry.1 entry.2)
        let numeric ← (List.range headers.length).mapM fun column => isNumericColumn column rows
        let columns := List.zipWith Column.mk widths numeric
        return (formatRow columns headers).map (Line.styled .bold)
          :: headerRule widths
          :: rows.map fun row => (formatRow columns row).map Line.ofText : Except Fault _)
        = .ok ((formatRow columns headers).map (Line.styled .bold)
          :: headerRule widths
          :: rows.map fun row => (formatRow columns row).map Line.ofText) := by
      rw [hwidths, hnumeric]
      rfl
    refine ⟨_, hlines, List.forall_mem_cons.2 ⟨(faultsIn_formatRow _ _).map,
      List.forall_mem_cons.2 ⟨faultsIn_headerRule _, fun line hline => ?_⟩⟩⟩
    obtain ⟨row, -, rfl⟩ := List.mem_map.1 hline
    exact (faultsIn_formatRow _ _).map

/-- Showing a table whose rows are as long as its headers raises faults of the host only. -/
theorem raisesOnly_putTable [Room] {headers : List Document} {rows : List (List Document)}
    (h : ∀ row ∈ rows, row.length = headers.length) : RaisesOnly console
      (IsHostFault surrogates console) (Host.putTable headers rows [] : SandboxM Unit) := by
  obtain ⟨lines, hlines, hfaults⟩ := exists_lines surrogates console h
  have hshow : RaisesOnly console (IsHostFault surrogates console)
      (lines.forM fun line => do Host.put (← Host.lift line) : SandboxM Unit) :=
    RaisesOnly.forM fun line hline =>
      (raisesOnly_lift (hfaults line hline)).bind fun line => raisesOnly_put line
  intro s hs
  unfold Host.putTable
  rw [run_bind, run_lift, hlines]
  exact hshow s hs

end

end Sandbox

end UsageCensus
