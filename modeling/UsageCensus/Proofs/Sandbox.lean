import UsageCensus.Files.Store
import UsageCensus.Sandbox

/-!
# Runs in a sandbox

A program that comes to a value has come to it step by step (`run_bind_eq_ok`). Steps that only
look at the sandbox leave it as it is, and a note leaves all but the notes.
-/

namespace UsageCensus.Sandbox

open UsageCensus.Files UsageCensus.Text

variable {α β : Type} {s s' : Sandbox}

/-- The sandbox with other notes in it. -/
def withNotes (sandbox : Sandbox) (notes : List String) : Sandbox := { sandbox with notes }

theorem run_bind (x : SandboxM α) (f : α → SandboxM β) (s : Sandbox) :
    run (x >>= f) s = match run x s with
      | (.ok a, between) => run (f a) between
      | (.error fault, between) => (.error fault, between) := by
  show (match (x s : Except Fault α × Sandbox) with
    | (a, between) => ExceptT.bindCont f a between) = _
  show _ = match (x s : Except Fault α × Sandbox) with
      | (.ok a, between) => run (f a) between
      | (.error fault, between) => (.error fault, between)
  rcases (x s : Except Fault α × Sandbox) with ⟨_ | _, between⟩ <;> rfl

theorem run_bind_eq_ok {x : SandboxM α} {f : α → SandboxM β} {b : β} :
    run (x >>= f) s = (.ok b, s')
      ↔ ∃ a between, run x s = (.ok a, between) ∧ run (f a) between = (.ok b, s') := by
  rw [run_bind]
  rcases run x s with ⟨_ | a, between⟩
  · simp
  · constructor
    · exact fun h => ⟨a, between, rfl, h⟩
    · rintro ⟨_, _, hx, h⟩
      cases hx
      exact h

theorem run_catch (x : SandboxM α) (handle : Fault → SandboxM α) (s : Sandbox) :
    run (tryCatch x handle) s = match run x s with
      | (.ok a, between) => (.ok a, between)
      | (.error fault, between) => run (handle fault) between := by
  unfold run
  simp only [tryCatch, tryCatchThe, MonadExceptOf.tryCatch, ExceptT.tryCatch, ExceptT.run,
    ExceptT.mk, StateT.run, bind, StateT.bind, Id.run]
  rcases (x s : Except Fault α × Sandbox) with ⟨_ | _, between⟩ <;> rfl

theorem run_pure_eq_ok {a b : α} :
    run (pure a : SandboxM α) s = (.ok b, s') ↔ a = b ∧ s = s' := by
  show ((.ok a, s) : Except Fault α × Sandbox) = _ ↔ _
  simp

theorem run_mapM_cons (f : α → SandboxM β) (a : α) (items : List α) (s : Sandbox) :
    run ((a :: items).mapM f) s = match run (f a) s with
      | (.ok b, between) => match run (items.mapM f) between with
        | (.ok rest, after) => (.ok (b :: rest), after)
        | (.error fault, after) => (.error fault, after)
      | (.error fault, between) => (.error fault, between) := by
  rw [List.mapM_cons, run_bind]
  rcases run (f a) s with ⟨_ | b, between⟩
  · rfl
  · dsimp only
    rw [run_bind]
    rcases run (items.mapM f) between with ⟨_ | rest, after⟩ <;> rfl

/-- Where each step only looks something up, so do all. -/
theorem run_mapM_of_forall {f : α → SandboxM β} {g : α → β} {items : List α}
    (h : ∀ a ∈ items, run (f a) s = (.ok (g a), s)) :
    run (items.mapM f) s = (.ok (items.map g), s) := by
  induction items with
  | nil => rfl
  | cons a items ih =>
    rw [run_mapM_cons, h a List.mem_cons_self]
    dsimp only
    rw [ih fun b hb => h b (List.mem_cons_of_mem _ hb)]
    rfl

/-- What is only looked up. -/
theorem run_look (look : Sandbox → Except Fault α) :
    run (do liftExcept (look (← get)) : SandboxM α) s = (look s, s) := by
  rw [run_bind]
  show run (liftExcept (look s)) s = _
  cases look s <;> rfl

variable [Room]

theorem run_lift (x : Except Fault α) : run (Host.lift x : SandboxM α) s = (x, s) := by
  cases x <;> rfl

theorem run_lift_eq_ok {x : Except Fault α} {a : α} :
    run (Host.lift x : SandboxM α) s = (.ok a, s') ↔ x = .ok a ∧ s = s' := by
  rw [run_lift, Prod.mk.injEq]

theorem run_kindAt (path : Path) : run (Host.kindAt path : SandboxM _) s = (s.kindAt path, s) :=
  run_look fun sandbox => sandbox.kindAt path

theorem run_console : run (Host.console : SandboxM Console) s = (.ok s.console, s) := rfl

theorem run_filesBelow (place : Place) (skip : Place → Except Fault Bool) :
    run (Host.filesBelow place skip : SandboxM _) s = (s.filesBelow place skip, s) :=
  run_look fun sandbox => sandbox.filesBelow place skip

theorem run_readFile (path : Path) : run (Host.readFile path : SandboxM _) s = (s.read path, s) :=
  run_look fun sandbox => sandbox.read path

theorem exists_run_note (style : Style) (text : String) :
    ∃ notes, run (Host.note style text : SandboxM _) s = (.ok (), s.withNotes notes) := ⟨_, rfl⟩

theorem run_note_eq_ok {style : Style} {text : String} {done : Unit}
    (h : run (Host.note style text : SandboxM _) s = (.ok done, s')) :
    ∃ notes, s' = s.withNotes notes :=
  ⟨_, (congrArg Prod.snd h).symm⟩

theorem run_encodable {surrogates : Surrogates} {text : String}
    (h : surrogates.occurIn text.toList = false) :
    run (Host.encodable surrogates text : SandboxM _) s = (.ok text, s) := by
  unfold Host.encodable
  rw [if_neg (ne_true_of_eq_false h)]
  rfl

theorem run_encodable_eq_ok {surrogates : Surrogates} {text shown : String}
    (h : run (Host.encodable surrogates text : SandboxM _) s = (.ok shown, s')) : s = s' := by
  unfold Host.encodable at h
  split at h
  · cases h
  · exact (run_pure_eq_ok.1 h).2

/-! ## Texts of files -/

/-- The text of a file, if there is one that can be read. -/
def textAt? (sandbox : Sandbox) (path : Path) : Option String :=
  (sandbox.read path).toOption.bind decode?

/-- The file can be read, or what stands in the way leaves it unread. -/
def isReadable (sandbox : Sandbox) (path : Path) : Bool :=
  match sandbox.read path with
  | .ok _ => true
  | .error fault => isReadFault fault

theorem run_readText? (path : Path) :
    run (readText? path : SandboxM _) s = match s.read path with
      | .ok content => (.ok (decode? content), s)
      | .error fault => if isReadFault fault then (.ok none, s) else (.error fault, s) := by
  unfold readText?
  rw [run_bind, run_catch, run_bind, run_readFile]
  cases s.read path with
  | ok content => rfl
  | error fault => cases hfault : isReadFault fault <;> simp only [hfault] <;> rfl

theorem run_readText?_eq_ok {path : Path} {text : Option String} :
    run (readText? path : SandboxM _) s = (.ok text, s')
      ↔ text = s.textAt? path ∧ s.isReadable path = true ∧ s = s' := by
  rw [run_readText?]
  unfold textAt? isReadable
  cases s.read path with
  | ok content => simp [Except.toOption, eq_comm]
  | error fault => cases hfault : isReadFault fault <;> simp [hfault, Except.toOption, eq_comm]

end UsageCensus.Sandbox
