import UsageCensus.Proofs.Census.Balance
import UsageCensus.Report.Outputs

/-!
# Requests to an inventory

An inventory takes files, detects defaults, and is written as files, in any order. Writing it
detects the defaults first. After any requests the reports are balanced (`IsBalanced.performAll`),
and once the defaults are applied no request changes the inventory any more (`perform_of_isFinal`).
-/

namespace UsageCensus.Census

open UsageCensus.Source

inductive Request where
  | add (codebase file : String) (scan : FileScan)
  | finalize
  | outputs (generatedAt library : String) (codebases : List String)

def Request.closes : Request → Bool
  | add _ _ _ => false
  | finalize => true
  | outputs _ _ _ => true

namespace Inventory

variable {detector : Detection.Detector Nat (Except Fault)} {inventory : Inventory}

/-- The answer after a change, and the inventory that it leaves. A fault of the change leaves the
inventory as it is. -/
def attempt (inventory : Inventory) (change : Except Fault Inventory)
    (answer : Inventory → Except Fault Outputs) : Except Fault Outputs × Inventory :=
  match change with
  | .ok changed => (answer changed, changed)
  | .error fault => (.error fault, inventory)

/-- All reports are balanced with what has been detected, which is nothing at first. -/
def IsBalanced (inventory : Inventory) : Prop := inventory.reports.IsBalanced inventory.detected

def IsFinal (inventory : Inventory) : Prop := inventory.detections.isSome

/-- The detector raises no fault on the props of the inventory. -/
def AnswersOn (detector : Detection.Detector Nat (Except Fault)) (inventory : Inventory) : Prop :=
  ∀ entry ∈ inventory.reports.entries, ∀ prop ∈ entry.2.props.entries,
    Defaults.isSkipped prop.1 = false →
      ∃ answer, detector entry.1 prop.1 prop.2.values prop.2.total = .ok answer

/-! ## Changes -/

theorem attempt_eq_or (inventory : Inventory) (change : Except Fault Inventory)
    (answer : Inventory → Except Fault Outputs) :
    (inventory.attempt change answer).2 = inventory ∨
      change = .ok (inventory.attempt change answer).2 := by
  cases change with
  | ok changed => exact .inr rfl
  | error fault => exact .inl rfl

theorem add_of_isFinal (h : inventory.IsFinal) (codebase file : String) (scan : FileScan) :
    inventory.add codebase file scan = .error .alreadyFinal := if_pos h

theorem finalize_of_isFinal (h : inventory.IsFinal) :
    inventory.finalize detector = .ok inventory := by
  obtain ⟨reports, detections⟩ := inventory
  cases detections with
  | none => cases h
  | some detections => rfl

theorem exists_finalize (h : AnswersOn detector inventory) :
    ∃ final, inventory.finalize detector = .ok final ∧ final.IsFinal := by
  obtain ⟨reports, detections⟩ := inventory
  cases detections with
  | none =>
    have hanswers : ∀ entry ∈ reports.usages.entries, ∀ prop ∈ entry.2.entries,
        Defaults.isSkipped prop.1 = false →
          ∃ answer, detector entry.1 prop.1 prop.2.values prop.2.total = .ok answer := by
      intro entry hentry prop hprop
      obtain ⟨report, hreport, rfl⟩ := List.mem_map.1 hentry
      obtain ⟨usage, husage, rfl⟩ := List.mem_map.1 hprop
      exact h report hreport usage husage
    obtain ⟨detections, hdetections⟩ := Detection.exists_detectAll hanswers
    have happly : reports.applyDefaults detector
        = .ok (detections.foldl ComponentReports.applyDetection reports, detections) :=
      bind_eq_ok.2 ⟨detections, hdetections, rfl⟩
    exact ⟨_, bind_eq_ok.2 ⟨_, happly, rfl⟩, rfl⟩
  | some detections => exact ⟨_, rfl, rfl⟩

theorem isBalanced_ofTracked (tracked : Tracked) : IsBalanced (.ofTracked tracked) :=
  ComponentReports.isBalanced_seed tracked.components

theorem IsBalanced.add (h : inventory.IsBalanced) {codebase file : String} {scan : FileScan}
    {added : Inventory} (hadd : inventory.add codebase file scan = .ok added) :
    added.IsBalanced := by
  obtain ⟨reports, detections⟩ := inventory
  cases detections with
  | none =>
    cases hadd
    exact ComponentReports.IsBalanced.addFile h codebase file scan
  | some detections => cases hadd

theorem IsBalanced.finalize (hfaithful : Detection.IsFaithful detector) (h : inventory.IsBalanced)
    {final : Inventory} (hfinal : inventory.finalize detector = .ok final) : final.IsBalanced := by
  obtain ⟨reports, detections⟩ := inventory
  cases detections with
  | none =>
    obtain ⟨⟨reports', detections⟩, happly, hfinal⟩ := bind_eq_ok.1 hfinal
    cases hfinal
    exact ComponentReports.isBalanced_applyDefaults hfaithful h happly
  | some detections =>
    cases hfinal
    exact h

/-! ## What a request can do -/

section

variable [Room]

/-- What a request answers, and the inventory that it leaves. -/
def perform (detector : Detection.Detector Nat (Except Fault)) (inventory : Inventory) :
    Request → Except Fault Outputs × Inventory
  | .add codebase file scan => inventory.attempt (inventory.add codebase file scan) fun _ => .ok []
  | .finalize => inventory.attempt (inventory.finalize detector) fun _ => .ok []
  | .outputs generatedAt library codebases =>
    inventory.attempt (inventory.finalize detector)
      (componentOutputs generatedAt library codebases)

def performAll (detector : Detection.Detector Nat (Except Fault)) (inventory : Inventory)
    (requests : List Request) : Inventory :=
  requests.foldl (fun inventory request => (inventory.perform detector request).2) inventory

/-- A request leaves the inventory as it is, adds a file, or applies the defaults. -/
theorem perform_cases (detector : Detection.Detector Nat (Except Fault)) (inventory : Inventory)
    (request : Request) :
    (inventory.perform detector request).2 = inventory ∨
      (∃ codebase file scan,
        inventory.add codebase file scan = .ok (inventory.perform detector request).2) ∨
      inventory.finalize detector = .ok (inventory.perform detector request).2 := by
  cases request with
  | add codebase file scan =>
    rcases inventory.attempt_eq_or (inventory.add codebase file scan) fun _ => .ok [] with h | h
    · exact .inl h
    · exact .inr (.inl ⟨codebase, file, scan, h⟩)
  | finalize => exact (inventory.attempt_eq_or _ _).imp id .inr
  | outputs generatedAt library codebases => exact (inventory.attempt_eq_or _ _).imp id .inr

/-! ## Balance -/

theorem IsBalanced.perform (hfaithful : Detection.IsFaithful detector) (h : inventory.IsBalanced)
    (request : Request) : (inventory.perform detector request).2.IsBalanced := by
  rcases inventory.perform_cases detector request with hsame | ⟨_, _, _, hadd⟩ | hfinal
  · rwa [hsame]
  · exact h.add hadd
  · exact h.finalize hfaithful hfinal

theorem IsBalanced.performAll (hfaithful : Detection.IsFaithful detector)
    (h : inventory.IsBalanced) (requests : List Request) :
    (inventory.performAll detector requests).IsBalanced := by
  unfold Inventory.performAll
  apply List.foldlRecOn (motive := IsBalanced)
  · exact h
  · exact fun inventory h request _ => h.perform hfaithful request

/-! ## After the defaults -/

/-- Once the defaults are applied, no request changes anything. -/
theorem perform_of_isFinal (h : inventory.IsFinal) (request : Request) :
    (inventory.perform detector request).2 = inventory := by
  rcases inventory.perform_cases detector request with hsame | ⟨_, _, _, hadd⟩ | hfinal
  · exact hsame
  · rw [add_of_isFinal h] at hadd
    cases hadd
  · rw [finalize_of_isFinal h] at hfinal
    exact (Except.ok.inj hfinal).symm

theorem performAll_of_isFinal (h : inventory.IsFinal) (requests : List Request) :
    inventory.performAll detector requests = inventory := by
  unfold performAll
  apply List.foldlRecOn (motive := fun later : Inventory => later = inventory)
  · rfl
  · rintro later rfl request -
    exact perform_of_isFinal h request

theorem perform_add_of_isFinal (h : inventory.IsFinal) (codebase file : String)
    (scan : FileScan) :
    inventory.perform detector (.add codebase file scan) = (.error .alreadyFinal, inventory) := by
  rw [perform, add_of_isFinal h]
  rfl

theorem isFinal_perform (h : AnswersOn detector inventory) {request : Request}
    (hcloses : request.closes) : (inventory.perform detector request).2.IsFinal := by
  obtain ⟨final, hfinal, hisFinal⟩ := exists_finalize h
  cases request with
  | add codebase file scan => cases hcloses
  | finalize =>
    rw [perform, hfinal]
    exact hisFinal
  | outputs generatedAt library codebases =>
    rw [perform, hfinal]
    exact hisFinal

/-- After any requests, with any detector that keeps to the prop it is asked for, the reports are
balanced. The first request that has the defaults applied is the last one to change anything: all
requests after it leave the inventory as it is, and no file is taken any more. -/
theorem balanced_and_applied_once (hfaithful : Detection.IsFaithful detector) (tracked : Tracked)
    (requests : List Request) :
    (performAll detector (.ofTracked tracked) requests).IsBalanced ∧
      ∀ request, request.closes →
        AnswersOn detector (performAll detector (.ofTracked tracked) requests) →
          (performAll detector (.ofTracked tracked) (requests ++ [request])).IsFinal ∧
          ∀ later,
            performAll detector (.ofTracked tracked) (requests ++ [request] ++ later)
              = performAll detector (.ofTracked tracked) (requests ++ [request]) ∧
            ∀ codebase file scan,
              perform detector
                (performAll detector (.ofTracked tracked) (requests ++ [request] ++ later))
                (.add codebase file scan)
              = (.error .alreadyFinal,
                performAll detector (.ofTracked tracked) (requests ++ [request])) := by
  refine ⟨(isBalanced_ofTracked tracked).performAll hfaithful requests, ?_⟩
  intro request hcloses hanswers
  have hfinal : (performAll detector (.ofTracked tracked) (requests ++ [request])).IsFinal := by
    rw [performAll, List.foldl_append]
    exact isFinal_perform hanswers hcloses
  refine ⟨hfinal, fun later => ?_⟩
  have hlater : performAll detector (.ofTracked tracked) (requests ++ [request] ++ later)
      = performAll detector (.ofTracked tracked) (requests ++ [request]) := by
    rw [performAll, List.foldl_append]
    exact performAll_of_isFinal hfinal later
  refine ⟨hlater, fun codebase file scan => ?_⟩
  rw [hlater]
  exact perform_add_of_isFinal hfinal codebase file scan

end

/-- A detector that takes the first value of every prop for its default. -/
def firstValue : Detection.Detector Nat (Except Fault) := fun component prop values total =>
  .ok (values.entries.head?.map fun (value, count) =>
    ⟨component, prop, value, .high, "First value", count, total⟩)

theorem isFaithful_firstValue : Detection.IsFaithful firstValue := by
  intro component prop values total detection h
  have h : values.entries.head?.map (fun entry : String × Nat =>
      (⟨component, prop, entry.1, .high, "First value", entry.2, total⟩ : Detection Nat))
        = some detection := Except.ok.inj h
  obtain ⟨entry, -, rfl⟩ := Option.map_eq_some_iff.1 h
  exact ⟨rfl, rfl⟩

def oneButton : Tracked where
  name := "ui"
  importSources := ["ui"]
  excludeSources := []
  components := ["Button"]
  nodup_components := by decide

def buttonFile : Request :=
  .add "shop" "Cart.tsx" ⟨.ofPairs [("Button", "Button")],
    [⟨"Button", [⟨"size", "\"small\""⟩], 1, 0, 7, 20⟩,
      ⟨"Button", [⟨"size", "\"small\""⟩], 2, 21, 28, 41⟩]⟩

def buttonInventory [Room] : Inventory :=
  performAll firstValue (.ofTracked oneButton) [buttonFile, .finalize]

/-- Two usages of the default are counted, also where the defaults are asked for again. -/
theorem balanced_and_applied_once_buttonFile :
    let _ : Room := .ofSize 1000 (by decide)
    buttonInventory.IsBalanced ∧ buttonInventory.IsFinal ∧
      buttonInventory.reports.values.map ComponentReport.defaultUsages = [2] ∧
      performAll firstValue (.ofTracked oneButton)
        [buttonFile, .finalize, .outputs "today" "ui" ["shop"], .finalize] = buttonInventory := by
  intro room
  have hanswers :
      AnswersOn firstValue (performAll firstValue (.ofTracked oneButton) [buttonFile]) :=
    fun _ _ _ _ _ => ⟨_, rfl⟩
  obtain ⟨-, hcloses⟩ :=
    balanced_and_applied_once isFaithful_firstValue oneButton [buttonFile]
  obtain ⟨hfinal, hlater⟩ := hcloses .finalize rfl hanswers
  obtain ⟨hbalanced, -⟩ :=
    balanced_and_applied_once isFaithful_firstValue oneButton [buttonFile, .finalize]
  refine ⟨hbalanced, hfinal, by decide +kernel, ?_⟩
  exact (hlater [.outputs "today" "ui" ["shop"], .finalize]).1

end Inventory

end UsageCensus.Census
