import LocalDesk.Data.Chains
import LocalDesk.Telemetry.Reducer

/-!
# Grouping of processes

Every process is given to an application.  A process in a scope belongs to the desktop entry that
the name of the scope leads to, or else to the scope.  A process outside of any scope inherits from
its parent.  In a second pass the processes of a scope without a desktop entry adopt the nearest
ancestor with one.
-/

namespace LocalDesk
namespace Telemetry

open Chains

/-- `strip_suffix`. -/
def stripSuffix (suffix text : List Char) : Option (List Char) :=
  (Text.stripPrefix suffix.reverse text.reverse).map List.reverse

def scopeLabel (scope : String) : List Char :=
  let component := lastComponent scope.toList
  (stripSuffix ".scope".toList ((Text.stripPrefix "app-".toList component).getD component)).getD
    component

/-- The label, and what is left of it without the numbers at its end, one after the other.  Every
turn takes a character off, so the length is fuel enough. -/
def strippedFrom : Nat → List Char → List (List Char)
  | 0, label => [label]
  | fuel + 1, label =>
    label :: match Text.rsplitOnce '-' label with
      | none => []
      | some (base, suffix) =>
        if suffix ≠ [] ∧ suffix.all Char.isDigit then strippedFrom fuel base else []

def stripped (label : List Char) : List (List Char) := strippedFrom label.length label

def desktopNameCandidates (label : List Char) : List (List Char) :=
  let candidates := stripped label
  match Text.rsplitOnce '@' label with
  | none => candidates
  | some (base, _) =>
    (stripped base).foldl
      (fun candidates candidate =>
        if candidates.contains candidate then candidates else candidates ++ [candidate])
      candidates

/-- The name of the file is the name of the entry, as no candidate has a slash. -/
def desktopIdForScope (scope : String) (roots : List DesktopRoot) : Option String :=
  let label := scopeLabel scope
  if label = [] then none
  else
    roots.findSome? fun root =>
      (desktopNameCandidates label).findSome? fun candidate =>
        let name := String.ofList (candidate ++ ".desktop".toList)
        if root.isFile name then some name else none

def fnv1a64 (bytes : List UInt8) (offset : Nat) : Nat :=
  bytes.foldl (fun hash byte => (hash ^^^ byte.toNat) * 0x100000001b3 % 2 ^ 64) offset

def opaqueKey (kind material : String) (salt : Nat) : String :=
  let bytes := (toString salt ++ ":" ++ material).toUTF8.data.toList
  kind ++ ":" ++ String.ofList (Uuid.hexDigits 16 (fnv1a64 bytes 0xcbf29ce484222325) ++
    Uuid.hexDigits 16 (fnv1a64 bytes 0x84222325cbf29ce4))

def ProcessIdentity.stableKey (identity : ProcessIdentity) : String :=
  identity.bootId ++ ":" ++ toString identity.pid ++ ":" ++ toString identity.startTimeTicks

def opaqueUnknownKey (process : RawProcess) (salt : Nat) : String :=
  opaqueKey "unknown" process.identity.stableKey salt

def opaqueCgroupKey (scope : String) (salt : Nat) : String := opaqueKey "cgroup" scope salt

structure Assignment where
  applicationKey : String
  desktopEntryId : Option String
  groupingResolution : GroupingResolution
  deriving DecidableEq, Repr

def RawProcess.pid (process : RawProcess) : Nat := process.identity.pid

def RawProcess.assign (process : RawProcess) (assignment : Assignment) : RawProcess :=
  { process with
    applicationKey := assignment.applicationKey
    desktopEntryId := assignment.desktopEntryId
    groupingResolution := assignment.groupingResolution }

def unknownAssignment (process : RawProcess) (salt : Nat) : Assignment :=
  ⟨opaqueUnknownKey process salt, none, .unknown⟩

def desktopAssignment (desktopId : String) : Assignment :=
  ⟨desktopId, some desktopId, .desktopEntryExact⟩

def scopeAssignment (scope : String) (salt : Nat) : Assignment :=
  ⟨opaqueCgroupKey scope salt, none, .cgroupScope⟩

def inherit (parent : Assignment) : Assignment :=
  { parent with groupingResolution := .inheritedParent }

section Resolution

variable (salt : Nat) (roots : List DesktopRoot)

def directAssignment (process : RawProcess) : Option Assignment :=
  (cgroupScope process.cgroupContent).map fun scope =>
    match desktopIdForScope scope roots with
    | some desktopId => desktopAssignment desktopId
    | none => scopeAssignment scope salt

def directAssignments (processes : List RawProcess) : Nat → Option Assignment :=
  processes.foldl
    (fun direct process =>
      match directAssignment salt roots process with
      | some assignment => Function.update direct process.pid (some assignment)
      | none => direct)
    fun _ => none

structure Visit where
  resolved : Nat → Option Assignment
  visiting : Nat → Bool

def Visit.resolve (visit : Visit) (pid : Nat) (assignment : Assignment) : Visit :=
  { visit with resolved := Function.update visit.resolved pid (some assignment) }

def Visit.mark (visit : Visit) (pid : Nat) (mark : Bool) : Visit :=
  { visit with visiting := Function.update visit.visiting pid mark }

def parentOf (processes : List RawProcess) (process : RawProcess) : Option RawProcess :=
  processes.find? fun candidate => candidate.pid = process.ppid

def inheritFrom (process : RawProcess) (parent : Option Assignment) : Assignment :=
  ((parent.filter fun parent => parent.groupingResolution ≠ .unknown).map inherit).getD
    (unknownAssignment process salt)

/-- The recursion over parents, unless it runs out of fuel. -/
def resolveProcess (processes : List RawProcess) (direct : Nat → Option Assignment) :
    Nat → RawProcess → Visit → Option (Assignment × Visit)
  | 0, _, _ => none
  | fuel + 1, process, visit =>
    match visit.resolved process.pid with
    | some assignment => some (assignment, visit)
    | none =>
      match direct process.pid with
      | some assignment => some (assignment, visit.resolve process.pid assignment)
      | none =>
        if visit.visiting process.pid then
          let assignment := unknownAssignment process salt
          some (assignment, visit.resolve process.pid assignment)
        else
          let entered := visit.mark process.pid true
          match parentOf processes process with
          | none =>
            let assignment := inheritFrom salt process none
            some (assignment, (entered.mark process.pid false).resolve process.pid assignment)
          | some parent =>
            (resolveProcess processes direct fuel parent entered).map fun found =>
              let assignment := inheritFrom salt process (some found.1)
              (assignment, (found.2.mark process.pid false).resolve process.pid assignment)

def resolveFrom (processes : List RawProcess) (direct : Nat → Option Assignment) :
    List RawProcess → Visit → Option (List RawProcess)
  | [], _ => some []
  | process :: rest, visit =>
    (resolveProcess salt processes direct (processes.length + 1) process visit).bind fun found =>
      (resolveFrom processes direct rest found.2).map (process.assign found.1 :: ·)

def resolveAll (processes : List RawProcess) : Option (List RawProcess) :=
  resolveFrom salt processes (directAssignments salt roots processes) processes
    ⟨fun _ => none, fun _ => false⟩

def nearestFrom (processes : List RawProcess) : Nat → Nat → Option RawProcess
  | 0, _ => none
  | turns + 1, parentPid =>
    match processes.find? fun candidate => candidate.pid = parentPid with
    | none => none
    | some parent =>
      match parent.groupingResolution with
      | .desktopEntryExact => some parent
      | .unknown => none
      | .cgroupScope => nearestFrom processes turns parent.ppid
      | .inheritedParent => nearestFrom processes turns parent.ppid

def nearestDesktopResolvedAncestor (process : RawProcess) (processes : List RawProcess) :
    Option RawProcess :=
  nearestFrom processes (processes.length + 1) process.ppid

def adoption (processes : List RawProcess) (process : RawProcess) : Option Assignment :=
  if process.groupingResolution ≠ .cgroupScope then none
  else
    (nearestDesktopResolvedAncestor process processes).map fun ancestor =>
      ⟨ancestor.applicationKey, ancestor.desktopEntryId, .inheritedParent⟩

def adoptAll (processes : List RawProcess) : List RawProcess :=
  processes.map fun process => ((adoption processes process).map process.assign).getD process

/-- The loop of the second pass, unless it runs out of fuel. -/
def adoptLoop : Nat → List RawProcess → Option (List RawProcess)
  | 0, _ => none
  | fuel + 1, processes =>
    if processes.all fun process => (adoption processes process).isNone then some processes
    else adoptLoop fuel (adoptAll processes)

/-- Both passes.  A turn of the second leaves fewer processes to adopt something. -/
def resolveGrouping (processes : List RawProcess) : Option (List RawProcess) :=
  (resolveAll salt roots processes).bind (adoptLoop (processes.length + 1))

end Resolution

section FirstPass

variable (salt : Nat) (roots : List DesktopRoot) (processes : List RawProcess)

def chainAssignment (process : RawProcess) : Assignment :=
  match directAssignment salt roots process with
  | some assignment => assignment
  | none =>
    ((walk (directAssignment salt roots) (parentOf processes) processes.length process).map
      inherit).getD (unknownAssignment process salt)

variable {salt roots processes}

theorem parentOf_mem {process parent : RawProcess} (h : parentOf processes process = some parent) :
    parent ∈ processes :=
  List.mem_of_find?_eq_some h

theorem closed_parentOf : ∀ process ∈ processes, ∀ parent,
    parentOf processes process = some parent → parent ∈ processes :=
  fun _ _ _ h => parentOf_mem h

theorem directAssignment_known {process : RawProcess} {assignment : Assignment}
    (h : directAssignment salt roots process = some assignment) :
    assignment.groupingResolution = .desktopEntryExact ∨
      assignment.groupingResolution = .cgroupScope := by
  obtain ⟨scope, -, hassignment⟩ := Option.map_eq_some_iff.mp h
  cases hid : desktopIdForScope scope roots with
  | some desktopId =>
    simp only [hid] at hassignment
    rw [← hassignment]
    exact .inl rfl
  | none =>
    simp only [hid] at hassignment
    rw [← hassignment]
    exact .inr rfl

theorem chainAssignment_direct {process : RawProcess} {assignment : Assignment}
    (h : directAssignment salt roots process = some assignment) :
    chainAssignment salt roots processes process = assignment := by
  simp only [chainAssignment, h]

theorem chainAssignment_reaches {process : RawProcess} {assignment : Assignment}
    (hmem : process ∈ processes) (h : directAssignment salt roots process = none)
    (hreaches : Reaches (directAssignment salt roots) (parentOf processes) process assignment) :
    chainAssignment salt roots processes process = inherit assignment := by
  simp only [chainAssignment, h, walk_of_reaches closed_parentOf hmem hreaches (le_refl _)]
  rfl

theorem chainAssignment_unknown {process : RawProcess}
    (h : ∀ assignment,
      ¬ Reaches (directAssignment salt roots) (parentOf processes) process assignment) :
    chainAssignment salt roots processes process = unknownAssignment process salt := by
  have hdirect : directAssignment salt roots process = none := by
    cases hdirect : directAssignment salt roots process with
    | none => rfl
    | some assignment => exact absurd (.stop hdirect) (h assignment)
  have hwalk : walk (directAssignment salt roots) (parentOf processes) processes.length process =
      none := by
    rw [Option.eq_none_iff_forall_ne_some]
    intro assignment hsome
    exact h assignment (reaches_of_walk hsome)
  simp only [chainAssignment, hdirect, hwalk]
  rfl

theorem chainAssignment_known {process : RawProcess} (hmem : process ∈ processes) :
    (chainAssignment salt roots processes process).groupingResolution ≠ .unknown ↔
      ∃ assignment,
        Reaches (directAssignment salt roots) (parentOf processes) process assignment := by
  constructor
  · intro hknown
    by_contra hnone
    rw [chainAssignment_unknown (not_exists.mp hnone)] at hknown
    exact hknown rfl
  · intro hex
    obtain ⟨assignment, hreaches⟩ := hex
    cases hdirect : directAssignment salt roots process with
    | some direct =>
      rw [chainAssignment_direct hdirect]
      cases directAssignment_known hdirect with
      | inl h => rw [h]; decide
      | inr h => rw [h]; decide
    | none =>
      rw [chainAssignment_reaches hmem hdirect hreaches]
      simp [inherit]

theorem inheritFrom_chainAssignment {process parent : RawProcess} (hmem : process ∈ processes)
    (h : directAssignment salt roots process = none)
    (hparent : parentOf processes process = some parent) :
    inheritFrom salt process (some (chainAssignment salt roots processes parent)) =
      chainAssignment salt roots processes process := by
  have hparentMem := parentOf_mem hparent
  by_cases hex : ∃ assignment,
      Reaches (directAssignment salt roots) (parentOf processes) parent assignment
  · have hknown := (chainAssignment_known hparentMem).mpr hex
    obtain ⟨assignment, hreaches⟩ := hex
    rw [chainAssignment_reaches hmem h (.next h hparent hreaches)]
    simp only [inheritFrom, Option.filter_some, hknown, ne_eq, not_false_eq_true, decide_true,
      if_true, Option.map_some, Option.getD_some]
    cases hdirect : directAssignment salt roots parent with
    | some direct =>
      rw [chainAssignment_direct hdirect, (reaches_of_stop hdirect).mp hreaches]
    | none =>
      rw [chainAssignment_reaches hparentMem hdirect hreaches]
      rfl
  · have hparentUnknown := chainAssignment_unknown (not_exists.mp hex)
    have hunknown : ∀ assignment,
        ¬ Reaches (directAssignment salt roots) (parentOf processes) process assignment := by
      intro assignment hreaches
      exact hex ⟨assignment, (reaches_of_next h hparent).mp hreaches⟩
    rw [chainAssignment_unknown hunknown, hparentUnknown]
    rfl

theorem inheritFrom_none {process : RawProcess} (h : directAssignment salt roots process = none)
    (hparent : parentOf processes process = none) :
    inheritFrom salt process none = chainAssignment salt roots processes process := by
  rw [chainAssignment_unknown fun _ => not_reaches_of_end h hparent]
  rfl

end FirstPass

section Recursion

variable {salt : Nat} {roots : List DesktopRoot} {processes : List RawProcess}

theorem foldl_directAssignments (direct : Nat → Option Assignment) (rest : List RawProcess)
    (pid : Nat) (h : pid ∉ rest.map RawProcess.pid) :
    rest.foldl
      (fun direct process =>
        match directAssignment salt roots process with
        | some assignment => Function.update direct process.pid (some assignment)
        | none => direct)
      direct pid = direct pid := by
  induction rest generalizing direct with
  | nil => rfl
  | cons process rest ih =>
    rw [List.map_cons, List.mem_cons, not_or] at h
    rw [List.foldl_cons, ih _ h.2]
    cases directAssignment salt roots process with
    | none => rfl
    | some assignment => exact Function.update_of_ne h.1 _ _

def unvisited (processes : List RawProcess) (visit : Visit) : List RawProcess :=
  processes.filter fun p => !visit.visiting p.pid

theorem unvisited_mark {visit : Visit} {process : RawProcess} (hmem : process ∈ processes)
    (h : visit.visiting process.pid = false) :
    (unvisited processes (visit.mark process.pid true)).length <
      (unvisited processes visit).length := by
  have hsub : unvisited processes (visit.mark process.pid true) =
      (unvisited processes visit).filter fun p => p.pid ≠ process.pid := by
    unfold unvisited
    rw [List.filter_filter]
    apply List.filter_congr
    intro p _
    by_cases heq : p.pid = process.pid
    · simp [Visit.mark, heq]
    · simp [Visit.mark, heq]
  rw [hsub, List.length_filter_lt_length_iff_exists]
  refine ⟨process, ?_, by simp⟩
  simp [unvisited, hmem, h]

variable (hnodup : (processes.map RawProcess.pid).Nodup)
include hnodup

theorem directAssignments_eq {process : RawProcess} (hmem : process ∈ processes) :
    directAssignments salt roots processes process.pid = directAssignment salt roots process := by
  unfold directAssignments
  have hempty : ∀ p ∈ processes, (fun _ : Nat => (none : Option Assignment)) p.pid = none :=
    fun _ _ => rfl
  generalize (fun _ : Nat => (none : Option Assignment)) = direct at hempty ⊢
  induction processes generalizing direct with
  | nil => simp at hmem
  | cons first rest ih =>
    rw [List.map_cons, List.nodup_cons] at hnodup
    rw [List.foldl_cons]
    cases List.mem_cons.mp hmem with
    | inl heq =>
      subst heq
      rw [foldl_directAssignments _ _ _ hnodup.1]
      cases hdirect : directAssignment salt roots process with
      | none => exact hempty process (List.mem_cons_self ..)
      | some assignment => exact Function.update_self _ _ _
    | inr hrest =>
      apply ih hnodup.2 hrest
      intro p hp
      have hne : p.pid ≠ first.pid := by
        intro heq
        exact hnodup.1 (heq ▸ List.mem_map_of_mem hp)
      cases directAssignment salt roots first with
      | none => exact hempty p (List.mem_cons_of_mem _ hp)
      | some assignment =>
        exact (Function.update_of_ne hne _ _).trans (hempty p (List.mem_cons_of_mem _ hp))

theorem pid_injective {process process' : RawProcess} (hmem : process ∈ processes)
    (hmem' : process' ∈ processes) (h : process.pid = process'.pid) : process = process' :=
  List.inj_on_of_nodup_map hnodup hmem hmem' h

/-- What has been resolved is what the chains give, and the processes that are being visited
stand before the current one on its chain. -/
structure VisitFits (salt : Nat) (roots : List DesktopRoot) (processes : List RawProcess)
    (visit : Visit) (process : RawProcess) : Prop where
  resolved : ∀ p ∈ processes, ∀ assignment, visit.resolved p.pid = some assignment →
    assignment = chainAssignment salt roots processes p
  visiting : ∀ p ∈ processes, visit.visiting p.pid = true →
    Relation.TransGen (Link (directAssignment salt roots) (parentOf processes)) p process

theorem resolved_resolve {visit : Visit} {process : RawProcess} (hmem : process ∈ processes)
    (h : ∀ p ∈ processes, ∀ assignment, visit.resolved p.pid = some assignment →
      assignment = chainAssignment salt roots processes p) :
    ∀ p ∈ processes, ∀ assignment,
      (visit.resolve process.pid (chainAssignment salt roots processes process)).resolved p.pid =
          some assignment → assignment = chainAssignment salt roots processes p := by
  intro p hp assignment hsome
  by_cases heq : p.pid = process.pid
  · rw [pid_injective hnodup hp hmem heq] at hsome ⊢
    simp only [Visit.resolve, Function.update_self, Option.some.injEq] at hsome
    exact hsome.symm
  · simp only [Visit.resolve, Function.update_of_ne heq] at hsome
    exact h p hp assignment hsome

theorem resolveProcess_eq {fuel : Nat} {visit : Visit} {process : RawProcess}
    (hmem : process ∈ processes) (h : VisitFits salt roots processes visit process)
    (hfuel : (unvisited processes visit).length < fuel) :
    ∃ visit', resolveProcess salt processes (directAssignments salt roots processes) fuel process
        visit = some (chainAssignment salt roots processes process, visit') ∧
      visit'.visiting = visit.visiting ∧
      ∀ p ∈ processes, ∀ assignment, visit'.resolved p.pid = some assignment →
        assignment = chainAssignment salt roots processes p := by
  induction fuel generalizing visit process with
  | zero => omega
  | succ fuel ih =>
    rw [resolveProcess]
    cases hresolved : visit.resolved process.pid with
    | some assignment =>
      rw [h.resolved process hmem assignment hresolved]
      exact ⟨visit, rfl, rfl, h.resolved⟩
    | none =>
      rw [directAssignments_eq hnodup hmem]
      cases hdirect : directAssignment salt roots process with
      | some assignment =>
        have hchain : chainAssignment salt roots processes process = assignment :=
          chainAssignment_direct hdirect
        refine ⟨visit.resolve process.pid assignment, by rw [hchain], rfl, ?_⟩
        rw [← hchain]
        exact resolved_resolve hnodup hmem h.resolved
      | none =>
        simp only
        by_cases hvisiting : visit.visiting process.pid = true
        · -- The process is on its own chain.
          have hcycle := h.visiting process hmem hvisiting
          have hchain := chainAssignment_unknown fun _ => not_reaches_of_cycle hcycle
          rw [if_pos hvisiting, ← hchain]
          exact ⟨_, rfl, rfl, resolved_resolve hnodup hmem h.resolved⟩
        · rw [if_neg hvisiting]
          rw [Bool.not_eq_true] at hvisiting
          have hrestore : Function.update (Function.update visit.visiting process.pid true)
              process.pid false = visit.visiting := by
            rw [Function.update_idem, ← hvisiting, Function.update_eq_self]
          cases hparent : parentOf processes process with
          | none =>
            simp only
            rw [inheritFrom_none hdirect hparent]
            exact ⟨_, rfl, hrestore, resolved_resolve hnodup hmem h.resolved⟩
          | some parent =>
            have hparentMem := parentOf_mem hparent
            have hentered : VisitFits salt roots processes (visit.mark process.pid true) parent := by
              refine ⟨h.resolved, fun p hp hmarked => ?_⟩
              by_cases heq : p.pid = process.pid
              · rw [pid_injective hnodup hp hmem heq]
                exact .single ⟨hdirect, hparent⟩
              · have hbefore : visit.visiting p.pid = true := by
                  simpa only [Visit.mark, Function.update_of_ne heq] using hmarked
                exact (h.visiting p hp hbefore).tail ⟨hdirect, hparent⟩
            have hless := unvisited_mark hmem hvisiting
            obtain ⟨visit', hfound, hsame, hall⟩ := ih hparentMem hentered (by omega)
            simp only [hfound, Option.map_some]
            rw [inheritFrom_chainAssignment hmem hdirect hparent]
            refine ⟨_, rfl, ?_, resolved_resolve hnodup hmem hall⟩
            show Function.update visit'.visiting process.pid false = visit.visiting
            rw [hsame]
            exact hrestore

theorem resolveAll_eq : resolveAll salt roots processes =
    some (processes.map fun p => p.assign (chainAssignment salt roots processes p)) := by
  have main : ∀ (rest : List RawProcess) (visit : Visit), rest ⊆ processes →
      (∀ p ∈ processes, ∀ assignment, visit.resolved p.pid = some assignment →
        assignment = chainAssignment salt roots processes p) →
      (∀ pid, visit.visiting pid = false) →
      resolveFrom salt processes (directAssignments salt roots processes) rest visit =
        some (rest.map fun p => p.assign (chainAssignment salt roots processes p)) := by
    intro rest
    induction rest with
    | nil => intro visit _ _ _; rfl
    | cons process rest ih =>
      intro visit hsub hresolved hvisiting
      rw [List.cons_subset] at hsub
      have hfits : VisitFits salt roots processes visit process := by
        refine ⟨hresolved, fun p _ hmarked => ?_⟩
        rw [hvisiting] at hmarked
        cases hmarked
      have hfuel : (unvisited processes visit).length < processes.length + 1 :=
        Nat.lt_succ_of_le (List.length_filter_le _ _)
      obtain ⟨visit', hfound, hsame, hall⟩ := resolveProcess_eq hnodup hsub.1 hfits hfuel
      rw [resolveFrom, hfound, Option.bind_some,
        ih visit' hsub.2 hall (fun pid => by rw [hsame, hvisiting])]
      rfl
  refine main processes _ (List.Subset.refl _) ?_ fun _ => rfl
  intro p _ assignment h
  cases h

end Recursion

section Assigned

variable {β : Type} {f : RawProcess → β} {salt : Nat} {roots : List DesktopRoot}

theorem map_resolveFrom (hf : ∀ process assignment, f (process.assign assignment) = f process)
    {processes : List RawProcess} {direct : Nat → Option Assignment} {rest grouped : List RawProcess}
    {visit : Visit} (h : resolveFrom salt processes direct rest visit = some grouped) :
    grouped.map f = rest.map f := by
  induction rest generalizing visit grouped with
  | nil =>
    cases h
    rfl
  | cons process rest ih =>
    rw [resolveFrom] at h
    obtain ⟨found, -, h⟩ := Option.bind_eq_some_iff.mp h
    obtain ⟨resolved, hresolved, h⟩ := Option.map_eq_some_iff.mp h
    rw [← h, List.map_cons, List.map_cons, hf, ih hresolved]

theorem map_adoptAll (hf : ∀ process assignment, f (process.assign assignment) = f process)
    (processes : List RawProcess) : (adoptAll processes).map f = processes.map f := by
  rw [adoptAll, List.map_map]
  apply List.map_congr_left
  intro process _
  show f (((adoption processes process).map process.assign).getD process) = f process
  cases adoption processes process with
  | none => rfl
  | some assignment => exact hf process assignment

theorem map_adoptLoop (hf : ∀ process assignment, f (process.assign assignment) = f process)
    {fuel : Nat} {processes grouped : List RawProcess} (h : adoptLoop fuel processes = some grouped) :
    grouped.map f = processes.map f := by
  induction fuel generalizing processes with
  | zero => cases h
  | succ fuel ih =>
    rw [adoptLoop] at h
    split_ifs at h
    · rw [Option.some.inj h]
    · rw [ih h, map_adoptAll hf]

theorem map_resolveGrouping (hf : ∀ process assignment, f (process.assign assignment) = f process)
    {processes grouped : List RawProcess} (h : resolveGrouping salt roots processes = some grouped) :
    grouped.map f = processes.map f := by
  obtain ⟨resolved, hresolved, h⟩ := Option.bind_eq_some_iff.mp h
  rw [map_adoptLoop hf h, map_resolveFrom hf hresolved]

end Assigned

end Telemetry
end LocalDesk
