import LocalDesk.Telemetry.Grouping

/-!
# Adoption

The second pass of the grouping, and what both passes give together.  A process in a scope without
a desktop entry adopts the entry that its chain of parents leads to, whatever stands in between,
and one turn of the loop is enough.  The passes are consistent along the tree of processes but for
the children that inherited from a process before it adopted.
-/

namespace LocalDesk
namespace Telemetry

open Chains

section SecondPass

def ownDesktopId (roots : List DesktopRoot) (process : RawProcess) : Option String :=
  (cgroupScope process.cgroupContent).bind fun scope => desktopIdForScope scope roots

def Adopts (roots : List DesktopRoot) (processes : List RawProcess) (process : RawProcess)
    (desktopId : String) : Prop :=
  (cgroupScope process.cgroupContent).isSome ∧ ownDesktopId roots process = none ∧
    Reaches (ownDesktopId roots) (parentOf processes) process desktopId

def adoptedAssignment (desktopId : String) : Assignment :=
  ⟨desktopId, some desktopId, .inheritedParent⟩

variable (salt : Nat) (roots : List DesktopRoot) (processes : List RawProcess)

def finalAssignment (process : RawProcess) : Assignment :=
  let assignment := chainAssignment salt roots processes process
  if assignment.groupingResolution = .cgroupScope then
    ((walk (ownDesktopId roots) (parentOf processes) processes.length process).map
      adoptedAssignment).getD assignment
  else assignment

structure Settled (given : RawProcess → Assignment) : Prop where
  exact : ∀ p ∈ processes, ∀ desktopId, ownDesktopId roots p = some desktopId →
    given p = desktopAssignment desktopId
  notExact : ∀ p ∈ processes, ownDesktopId roots p = none →
    (given p).groupingResolution ≠ .desktopEntryExact
  unknown : ∀ p ∈ processes, (given p).groupingResolution = .unknown →
    ∀ assignment, ¬ Reaches (directAssignment salt roots) (parentOf processes) p assignment
  cgroupScope : ∀ p ∈ processes, (given p).groupingResolution = .cgroupScope →
    (cgroupScope p.cgroupContent).isSome ∧ ownDesktopId roots p = none

variable {salt roots processes}

theorem directAssignment_of_own {process : RawProcess} {desktopId : String}
    (h : ownDesktopId roots process = some desktopId) :
    directAssignment salt roots process = some (desktopAssignment desktopId) := by
  obtain ⟨scope, hscope, hid⟩ := Option.bind_eq_some_iff.mp h
  simp only [directAssignment, hscope, Option.map_some, hid]

variable (salt) in
theorem directAssignment_of_scope {process : RawProcess}
    (hscope : (cgroupScope process.cgroupContent).isSome) (h : ownDesktopId roots process = none) :
    ∃ scope, directAssignment salt roots process = some (scopeAssignment scope salt) := by
  obtain ⟨scope, hscope⟩ := Option.isSome_iff_exists.mp hscope
  have hid : desktopIdForScope scope roots = none := by
    simpa only [ownDesktopId, hscope, Option.bind_some] using h
  exact ⟨scope, by simp only [directAssignment, hscope, Option.map_some, hid]⟩

theorem directAssignment_of_none {process : RawProcess}
    (h : cgroupScope process.cgroupContent = none) :
    directAssignment salt roots process = none := by
  rw [directAssignment, h, Option.map_none]

variable (salt) in
theorem reaches_direct {process : RawProcess} {desktopId : String}
    (h : Reaches (ownDesktopId roots) (parentOf processes) process desktopId) :
    ∃ assignment,
      Reaches (directAssignment salt roots) (parentOf processes) process assignment := by
  induction h with
  | stop hown => exact ⟨_, .stop (directAssignment_of_own hown)⟩
  | @next p c _ _ hparent _ ih =>
    cases hdirect : directAssignment salt roots p with
    | some assignment => exact ⟨assignment, .stop hdirect⟩
    | none =>
      obtain ⟨assignment, hreaches⟩ := ih
      exact ⟨assignment, .next hdirect hparent hreaches⟩

variable (salt roots) in
theorem chainAssignment_outside {process : RawProcess} (hmem : process ∈ processes)
    (h : cgroupScope process.cgroupContent = none) :
    (chainAssignment salt roots processes process).groupingResolution = .inheritedParent ∨
      (chainAssignment salt roots processes process).groupingResolution = .unknown := by
  have hdirect : directAssignment salt roots process = none := directAssignment_of_none h
  by_cases hex : ∃ assignment,
      Reaches (directAssignment salt roots) (parentOf processes) process assignment
  · obtain ⟨assignment, hreaches⟩ := hex
    rw [chainAssignment_reaches hmem hdirect hreaches]
    exact .inl rfl
  · rw [chainAssignment_unknown (not_exists.mp hex)]
    exact .inr rfl

variable (salt) in
theorem chainAssignment_cgroupScope {process : RawProcess} (hmem : process ∈ processes) :
    (chainAssignment salt roots processes process).groupingResolution = .cgroupScope ↔
      (cgroupScope process.cgroupContent).isSome ∧ ownDesktopId roots process = none := by
  cases hown : ownDesktopId roots process with
  | some desktopId =>
    rw [chainAssignment_direct (directAssignment_of_own hown)]
    simp [desktopAssignment]
  | none =>
    by_cases hscope : (cgroupScope process.cgroupContent).isSome
    · obtain ⟨scope, hdirect⟩ := directAssignment_of_scope salt hscope hown
      rw [chainAssignment_direct hdirect]
      simp [scopeAssignment, hscope]
    · have hnone : cgroupScope process.cgroupContent = none := by simpa using hscope
      cases chainAssignment_outside salt roots hmem hnone with
      | inl h => simp [h, hnone]
      | inr h => simp [h, hnone]

theorem chainAssignment_notExact {process : RawProcess} (hmem : process ∈ processes)
    (hown : ownDesktopId roots process = none) :
    (chainAssignment salt roots processes process).groupingResolution ≠ .desktopEntryExact := by
  by_cases hscope : (cgroupScope process.cgroupContent).isSome
  · rw [(chainAssignment_cgroupScope salt hmem).mpr ⟨hscope, hown⟩]
    decide
  · have hnone : cgroupScope process.cgroupContent = none := by simpa using hscope
    cases chainAssignment_outside salt roots hmem hnone with
    | inl h => simp [h]
    | inr h => simp [h]

variable (salt roots processes) in
theorem settled_chainAssignment :
    Settled salt roots processes (chainAssignment salt roots processes) := by
  refine ⟨fun p _ desktopId h => chainAssignment_direct (directAssignment_of_own h),
    fun p hp hown => chainAssignment_notExact hp hown, ?_,
    fun p hp hscope => (chainAssignment_cgroupScope salt hp).mp hscope⟩
  intro p hp hunknown assignment hreaches
  exact (chainAssignment_known hp).mpr ⟨assignment, hreaches⟩ hunknown

theorem finalAssignment_adopts {process : RawProcess} (hmem : process ∈ processes)
    {desktopId : String} (h : Adopts roots processes process desktopId) :
    finalAssignment salt roots processes process = adoptedAssignment desktopId := by
  have hscope := (chainAssignment_cgroupScope salt hmem).mpr ⟨h.1, h.2.1⟩
  have hwalk := walk_of_reaches closed_parentOf hmem h.2.2 (le_refl _)
  simp only [finalAssignment, hscope, if_true, hwalk, Option.map_some, Option.getD_some]

theorem finalAssignment_keeps {process : RawProcess} (hmem : process ∈ processes)
    (h : ∀ desktopId, ¬ Adopts roots processes process desktopId) :
    finalAssignment salt roots processes process =
      chainAssignment salt roots processes process := by
  by_cases hscope :
      (chainAssignment salt roots processes process).groupingResolution = .cgroupScope
  · obtain ⟨hsome, hown⟩ := (chainAssignment_cgroupScope salt hmem).mp hscope
    have hwalk : walk (ownDesktopId roots) (parentOf processes) processes.length process =
        none := by
      rw [Option.eq_none_iff_forall_ne_some]
      intro desktopId hfound
      exact h desktopId ⟨hsome, hown, reaches_of_walk hfound⟩
    simp only [finalAssignment, hscope, if_true, hwalk, Option.map_none, Option.getD_none]
  · simp only [finalAssignment, hscope, if_false]

theorem settled_finalAssignment :
    Settled salt roots processes (finalAssignment salt roots processes) := by
  have hsettled := settled_chainAssignment salt roots processes
  have hcases : ∀ p ∈ processes, (∃ desktopId, ownDesktopId roots p = none ∧
      finalAssignment salt roots processes p = adoptedAssignment desktopId) ∨
      finalAssignment salt roots processes p = chainAssignment salt roots processes p := by
    intro p hp
    by_cases hex : ∃ desktopId, Adopts roots processes p desktopId
    · obtain ⟨desktopId, hadopts⟩ := hex
      exact .inl ⟨desktopId, hadopts.2.1, finalAssignment_adopts hp hadopts⟩
    · exact .inr (finalAssignment_keeps hp (not_exists.mp hex))
  constructor
  · intro p hp desktopId hown
    rcases hcases p hp with ⟨_, hnone, -⟩ | heq
    · rw [hown] at hnone
      cases hnone
    · rw [heq]
      exact hsettled.exact p hp desktopId hown
  · intro p hp hown
    rcases hcases p hp with ⟨_, -, heq⟩ | heq
    · simp [heq, adoptedAssignment]
    · rw [heq]
      exact hsettled.notExact p hp hown
  · intro p hp hunknown
    rcases hcases p hp with ⟨_, -, heq⟩ | heq
    · simp [heq, adoptedAssignment] at hunknown
    · rw [heq] at hunknown
      exact hsettled.unknown p hp hunknown
  · intro p hp hscope
    rcases hcases p hp with ⟨_, -, heq⟩ | heq
    · simp [heq, adoptedAssignment] at hscope
    · rw [heq] at hscope
      exact hsettled.cgroupScope p hp hscope

def table (processes : List RawProcess) (given : RawProcess → Assignment) : List RawProcess :=
  processes.map fun p => p.assign (given p)

theorem find_table (given : RawProcess → Assignment) (pid : Nat) :
    (table processes given).find? (fun p => p.pid = pid) =
      (processes.find? fun p => p.pid = pid).map fun p => p.assign (given p) := by
  rw [table, List.find?_map]
  rfl

variable {given : RawProcess → Assignment} (hgiven : Settled salt roots processes given)
include hgiven

theorem nearestFrom_reaches {turns pid : Nat} {ancestor : RawProcess}
    (h : nearestFrom (table processes given) turns pid = some ancestor) :
    ∃ p desktopId, processes.find? (fun p => p.pid = pid) = some p ∧
      Reaches (ownDesktopId roots) (parentOf processes) p desktopId ∧
      ancestor.applicationKey = desktopId ∧ ancestor.desktopEntryId = some desktopId := by
  induction turns generalizing pid with
  | zero => cases h
  | succ turns ih =>
    rw [nearestFrom, find_table] at h
    cases hfind : processes.find? fun p => p.pid = pid with
    | none => simp [hfind] at h
    | some p =>
      have hp := List.mem_of_find?_eq_some hfind
      have hnext : nearestFrom (table processes given) turns p.ppid = some ancestor →
          ownDesktopId roots p = none → ∃ desktopId,
            Reaches (ownDesktopId roots) (parentOf processes) p desktopId ∧
            ancestor.applicationKey = desktopId ∧ ancestor.desktopEntryId = some desktopId := by
        intro hrest hown
        obtain ⟨c, desktopId, hc, hreaches, hkey, hid⟩ := ih hrest
        exact ⟨desktopId, .next hown hc hreaches, hkey, hid⟩
      simp only [hfind, Option.map_some] at h
      cases hown : ownDesktopId roots p with
      | some desktopId =>
        have hassigned := hgiven.exact p hp desktopId hown
        simp only [hassigned, RawProcess.assign, desktopAssignment, Option.some.injEq] at h
        rw [← h]
        exact ⟨p, desktopId, rfl, .stop hown, rfl, rfl⟩
      | none =>
        have hne := hgiven.notExact p hp hown
        cases hresolution : (given p).groupingResolution with
        | desktopEntryExact => exact absurd hresolution hne
        | unknown => simp [RawProcess.assign, hresolution] at h
        | cgroupScope =>
          simp only [RawProcess.assign, hresolution] at h
          obtain ⟨desktopId, hrest⟩ := hnext h hown
          exact ⟨p, desktopId, rfl, hrest⟩
        | inheritedParent =>
          simp only [RawProcess.assign, hresolution] at h
          obtain ⟨desktopId, hrest⟩ := hnext h hown
          exact ⟨p, desktopId, rfl, hrest⟩

theorem nearestFrom_of_walk {turns pid : Nat} {p : RawProcess} {desktopId : String}
    (hfind : processes.find? (fun p => p.pid = pid) = some p)
    (h : walk (ownDesktopId roots) (parentOf processes) turns p = some desktopId) :
    (nearestFrom (table processes given) turns pid).isSome := by
  induction turns generalizing pid p with
  | zero => cases h
  | succ turns ih =>
    have hp := List.mem_of_find?_eq_some hfind
    rw [nearestFrom, find_table, hfind]
    simp only [Option.map_some]
    cases hown : ownDesktopId roots p with
    | some found =>
      have hassigned := hgiven.exact p hp found hown
      simp [hassigned, RawProcess.assign, desktopAssignment]
    | none =>
      cases hparent : parentOf processes p with
      | none =>
        rw [walk_end hown hparent] at h
        cases h
      | some c =>
        obtain ⟨assignment, hreaches⟩ := reaches_direct salt (reaches_of_walk h)
        rw [walk_next hown hparent] at h
        have hrest := ih hparent h
        have hne := hgiven.notExact p hp hown
        cases hresolution : (given p).groupingResolution with
        | desktopEntryExact => exact absurd hresolution hne
        | unknown => exact absurd hreaches (hgiven.unknown p hp hresolution assignment)
        | cgroupScope => simpa only [RawProcess.assign, hresolution] using hrest
        | inheritedParent => simpa only [RawProcess.assign, hresolution] using hrest

theorem adoption_adopts {process : RawProcess} {desktopId : String}
    (hscope : (given process).groupingResolution = .cgroupScope)
    (h : Adopts roots processes process desktopId) :
    adoption (table processes given) (process.assign (given process)) =
      some (adoptedAssignment desktopId) := by
  obtain ⟨-, hown, hreaches⟩ := h
  cases hparent : parentOf processes process with
  | none => exact absurd hreaches (not_reaches_of_end hown hparent)
  | some parent =>
    rw [reaches_of_next hown hparent] at hreaches
    have hwalk := walk_of_reaches closed_parentOf (parentOf_mem hparent) hreaches
      (Nat.le_succ processes.length)
    obtain ⟨ancestor, hancestor⟩ :=
      Option.isSome_iff_exists.mp (nearestFrom_of_walk hgiven hparent hwalk)
    obtain ⟨p, found, hfind, hfound, hkey, hid⟩ := nearestFrom_reaches hgiven hancestor
    obtain rfl : parent = p := Option.some.inj (hparent.symm.trans hfind)
    obtain rfl : found = desktopId := hreaches.unique hfound
    have hlength : (table processes given).length = processes.length := List.length_map _
    have hnearest : nearestDesktopResolvedAncestor (process.assign (given process))
        (table processes given) = some ancestor := by
      rw [nearestDesktopResolvedAncestor, hlength]
      exact hancestor
    have hne : ¬ (process.assign (given process)).groupingResolution ≠ .cgroupScope :=
      not_not.mpr hscope
    rw [adoption, if_neg hne, hnearest, Option.map_some, hkey, hid]
    rfl

theorem adoption_eq_none {process : RawProcess} (hmem : process ∈ processes)
    (h : ∀ desktopId, (given process).groupingResolution = .cgroupScope →
      ¬ Adopts roots processes process desktopId) :
    adoption (table processes given) (process.assign (given process)) = none := by
  by_cases hscope : (given process).groupingResolution = .cgroupScope
  · obtain ⟨hsome, hown⟩ := hgiven.cgroupScope process hmem hscope
    have hnearest : nearestDesktopResolvedAncestor (process.assign (given process))
        (table processes given) = none := by
      rw [Option.eq_none_iff_forall_ne_some]
      intro ancestor hancestor
      obtain ⟨parent, desktopId, hparent, hreaches, -⟩ := nearestFrom_reaches hgiven hancestor
      exact h desktopId hscope ⟨hsome, hown, .next hown hparent hreaches⟩
    rw [adoption, hnearest, Option.map_none, ite_self]
  · exact if_pos hscope

omit hgiven in
theorem adoptAll_table : adoptAll (table processes (chainAssignment salt roots processes)) =
    table processes (finalAssignment salt roots processes) := by
  rw [adoptAll, table, List.map_map]
  apply List.map_congr_left
  intro p hp
  show ((adoption (table processes (chainAssignment salt roots processes))
    (p.assign (chainAssignment salt roots processes p))).map
      (p.assign (chainAssignment salt roots processes p)).assign).getD _ = _
  by_cases hex : ∃ desktopId, Adopts roots processes p desktopId
  · obtain ⟨desktopId, hadopts⟩ := hex
    have hscope := (chainAssignment_cgroupScope salt hp).mpr ⟨hadopts.1, hadopts.2.1⟩
    rw [adoption_adopts (settled_chainAssignment salt roots processes) hscope hadopts,
      finalAssignment_adopts hp hadopts]
    rfl
  · have hnone := not_exists.mp hex
    rw [adoption_eq_none (settled_chainAssignment salt roots processes) hp fun desktopId _ => hnone desktopId,
      finalAssignment_keeps hp hnone]
    rfl

omit hgiven in
theorem adoption_finalAssignment {process : RawProcess} (hmem : process ∈ processes) :
    adoption (table processes (finalAssignment salt roots processes))
      (process.assign (finalAssignment salt roots processes process)) = none := by
  apply adoption_eq_none settled_finalAssignment hmem
  intro desktopId hscope hadopts
  rw [finalAssignment_adopts hmem hadopts] at hscope
  cases hscope

omit hgiven in
theorem adoptLoop_final {fuel : Nat} :
    adoptLoop (fuel + 1) (table processes (finalAssignment salt roots processes)) =
      some (table processes (finalAssignment salt roots processes)) := by
  rw [adoptLoop, if_pos]
  rw [List.all_eq_true]
  intro p hp
  obtain ⟨process, hmem, rfl⟩ := List.mem_map.mp hp
  rw [adoption_finalAssignment hmem]
  rfl

omit hgiven in
theorem resolveGrouping_eq (hnodup : (processes.map RawProcess.pid).Nodup) :
    resolveGrouping salt roots processes =
      some (table processes (finalAssignment salt roots processes)) := by
  rw [resolveGrouping, resolveAll_eq hnodup, Option.bind_some]
  show adoptLoop (processes.length + 1) (table processes (chainAssignment salt roots processes)) = _
  rw [adoptLoop]
  cases hlength : processes.length with
  | zero =>
    rw [List.eq_nil_of_length_eq_zero hlength]
    rfl
  | succ n =>
    by_cases hall : ((table processes (chainAssignment salt roots processes)).all fun process =>
        (adoption (table processes (chainAssignment salt roots processes)) process).isNone) = true
    · rw [if_pos hall, ← adoptAll_table, adoptAll]
      have hsame : ∀ p ∈ table processes (chainAssignment salt roots processes),
          ((adoption (table processes (chainAssignment salt roots processes)) p).map
            p.assign).getD p = p := by
        intro p hp
        rw [Option.isNone_iff_eq_none.mp (List.all_eq_true.mp hall p hp)]
        rfl
      rw [List.map_congr_left hsame, List.map_id']
    · rw [if_neg hall, adoptAll_table]
      exact adoptLoop_final

end SecondPass

section Consistency

variable {salt : Nat} {roots : List DesktopRoot} {processes : List RawProcess}

theorem parentOf_perm {processes' : List RawProcess}
    (hnodup : (processes.map RawProcess.pid).Nodup) (h : processes'.Perm processes) :
    parentOf processes' = parentOf processes := by
  funext process
  apply List.find?_eq_find?_of_perm h
  intro p hp q hq
  have hpid : p.pid = process.ppid := by simpa using hp.2
  have hqid : q.pid = process.ppid := by simpa using hq.2
  exact pid_injective hnodup (h.mem_iff.mp hp.1) (h.mem_iff.mp hq.1) (hpid.trans hqid.symm)

theorem finalAssignment_perm {processes' : List RawProcess}
    (hnodup : (processes.map RawProcess.pid).Nodup) (h : processes'.Perm processes) :
    finalAssignment salt roots processes' = finalAssignment salt roots processes := by
  funext process
  unfold finalAssignment chainAssignment
  rw [parentOf_perm hnodup h, h.length_eq]

theorem chainAssignment_inherits {child parent : RawProcess} (hchild : child ∈ processes)
    (hscope : cgroupScope child.cgroupContent = none)
    (hparent : parentOf processes child = some parent)
    (hknown : (chainAssignment salt roots processes parent).groupingResolution ≠ .unknown) :
    chainAssignment salt roots processes child =
      inherit (chainAssignment salt roots processes parent) := by
  rw [← inheritFrom_chainAssignment hchild (directAssignment_of_none hscope) hparent]
  simp only [inheritFrom, Option.filter_some, hknown, ne_eq, not_false_eq_true, decide_true,
    if_true, Option.map_some, Option.getD_some]

/-- The assignment depends on the processes only, not on their order.  A process in the scope of a
desktop entry has its key, and a process outside of any scope has the key and the entry of its
parent, unless that is unknown. -/
structure ConsistentGrouping (salt : Nat) (roots : List DesktopRoot)
    (processes : List RawProcess) (assigned : Nat → Assignment) : Prop where
  resolved : ∀ processes' : List RawProcess, processes'.Perm processes →
    resolveGrouping salt roots processes' =
      some (processes'.map fun process => process.assign (assigned process.pid))
  ownDesktop : ∀ process ∈ processes, ∀ scope desktopId,
    cgroupScope process.cgroupContent = some scope →
      desktopIdForScope scope roots = some desktopId →
        (assigned process.pid).applicationKey = desktopId
  parent : ∀ child ∈ processes, cgroupScope child.cgroupContent = none →
    ∀ parent ∈ processes, parent.pid = child.ppid →
      (assigned parent.pid).groupingResolution ≠ .unknown →
        (assigned child.pid).applicationKey = (assigned parent.pid).applicationKey ∧
          (assigned child.pid).desktopEntryId = (assigned parent.pid).desktopEntryId

theorem RawProcess.assign_injective (process : RawProcess) : Function.Injective process.assign := by
  intro a b h
  simp only [RawProcess.assign, RawProcess.mk.injEq, true_and] at h
  cases a
  cases b
  simp_all

def assignedTo (salt : Nat) (roots : List DesktopRoot) (processes : List RawProcess) (pid : Nat) :
    Assignment :=
  ((processes.find? fun p => p.pid = pid).map (finalAssignment salt roots processes)).getD
    ⟨"", none, .unknown⟩

variable (hnodup : (processes.map RawProcess.pid).Nodup)
include hnodup

theorem find_pid {process : RawProcess} (hmem : process ∈ processes) :
    (processes.find? fun p => p.pid = process.pid) = some process := by
  cases hfind : processes.find? fun p => p.pid = process.pid with
  | none =>
    have hne := List.find?_eq_none.mp hfind process hmem
    simp at hne
  | some found =>
    have hpid : found.pid = process.pid := by
      simpa using List.find?_some hfind
    rw [pid_injective hnodup (List.mem_of_find?_eq_some hfind) hmem hpid]

theorem assignedTo_eq {process : RawProcess} (hmem : process ∈ processes) :
    assignedTo salt roots processes process.pid = finalAssignment salt roots processes process := by
  rw [assignedTo, find_pid hnodup hmem]
  rfl

theorem resolveGrouping_perm {processes' : List RawProcess} (h : processes'.Perm processes) :
    resolveGrouping salt roots processes' = some (processes'.map fun process =>
      process.assign (assignedTo salt roots processes process.pid)) := by
  have hnodup' : (processes'.map RawProcess.pid).Nodup :=
    (h.map RawProcess.pid).nodup_iff.mpr hnodup
  rw [resolveGrouping_eq hnodup', finalAssignment_perm hnodup h, Option.some.injEq]
  apply List.map_congr_left
  intro p hp
  rw [assignedTo_eq hnodup (h.mem_iff.mp hp)]

/-- A process outside of any scope whose parent adopts the desktop entry of an ancestor. -/
def Straggler (roots : List DesktopRoot) (processes : List RawProcess)
    (child parent : RawProcess) : Prop :=
  cgroupScope child.cgroupContent = none ∧ parent.pid = child.ppid ∧
    ∃ desktopId, Adopts roots processes parent desktopId

theorem parentOf_eq {child parent : RawProcess} (hmem : parent ∈ processes)
    (h : parent.pid = child.ppid) : parentOf processes child = some parent := by
  have hfind := find_pid hnodup hmem
  rw [h] at hfind
  exact hfind

omit hnodup in
theorem finalAssignment_outside {child : RawProcess} (hmem : child ∈ processes)
    (hscope : cgroupScope child.cgroupContent = none) :
    finalAssignment salt roots processes child = chainAssignment salt roots processes child := by
  apply finalAssignment_keeps hmem
  intro desktopId hadopts
  have hsome := hadopts.1
  rw [hscope] at hsome
  cases hsome

theorem no_stragglers {assigned : Nat → Assignment}
    (hassigned : ConsistentGrouping salt roots processes assigned) {child parent : RawProcess}
    (hchild : child ∈ processes) (hparent : parent ∈ processes) :
    ¬ Straggler roots processes child parent := by
  intro hstraggler
  obtain ⟨hscope, hpid, desktopId, hadopts⟩ := hstraggler
  have hfinal : ∀ p ∈ processes, assigned p.pid = finalAssignment salt roots processes p := by
    have hboth := hassigned.resolved processes (List.Perm.refl _)
    rw [resolveGrouping_eq hnodup, Option.some.injEq, table, List.map_inj_left] at hboth
    intro p hp
    exact (RawProcess.assign_injective p (hboth p hp)).symm
  obtain ⟨scope, hdirect⟩ := directAssignment_of_scope salt hadopts.1 hadopts.2.1
  have hchain : chainAssignment salt roots processes parent = scopeAssignment scope salt :=
    chainAssignment_direct hdirect
  have hknown : (chainAssignment salt roots processes parent).groupingResolution ≠ .unknown := by
    rw [hchain]
    simp [scopeAssignment]
  have hadopted := (hfinal parent hparent).trans (finalAssignment_adopts hparent hadopts)
  have hinherits := (hfinal child hchild).trans ((finalAssignment_outside hchild hscope).trans
    (chainAssignment_inherits hchild hscope (parentOf_eq hnodup hparent hpid) hknown))
  have hparentKnown : (assigned parent.pid).groupingResolution ≠ .unknown := by
    rw [hadopted]
    simp [adoptedAssignment]
  have hsame := (hassigned.parent child hchild hscope parent hparent hpid hparentKnown).2
  rw [hadopted, hinherits, hchain] at hsame
  cases hsame

theorem consistent_of_no_stragglers (h : ∀ child ∈ processes, ∀ parent ∈ processes,
      ¬ Straggler roots processes child parent) :
    ConsistentGrouping salt roots processes (assignedTo salt roots processes) := by
  refine ⟨fun _ hperm => resolveGrouping_perm hnodup hperm, ?_, ?_⟩
  · intro process hmem scope desktopId hscope hid
    have hown : ownDesktopId roots process = some desktopId := by
      rw [ownDesktopId, hscope, Option.bind_some, hid]
    rw [assignedTo_eq hnodup hmem, settled_finalAssignment.exact process hmem desktopId hown]
    rfl
  · intro child hmem hscope parent hparentMem hpid hknown
    have hnone : ∀ desktopId, ¬ Adopts roots processes parent desktopId :=
      fun desktopId hadopts => h child hmem parent hparentMem ⟨hscope, hpid, desktopId, hadopts⟩
    rw [assignedTo_eq hnodup hparentMem, finalAssignment_keeps hparentMem hnone] at hknown ⊢
    rw [assignedTo_eq hnodup hmem, finalAssignment_outside hmem hscope,
      chainAssignment_inherits hmem hscope (parentOf_eq hnodup hparentMem hpid) hknown]
    exact ⟨rfl, rfl⟩

/-- The grouping is consistent exactly when no process outside of any scope has a parent that
adopts the desktop entry of an ancestor in the second pass. -/
theorem grouping_consistent_iff : (∃ assigned, ConsistentGrouping salt roots processes assigned) ↔
    ∀ child ∈ processes, ∀ parent ∈ processes, ¬ Straggler roots processes child parent := by
  constructor
  · intro hconsistent child hchild parent hparent
    obtain ⟨assigned, hassigned⟩ := hconsistent
    exact no_stragglers hnodup hassigned hchild hparent
  · intro h
    exact ⟨assignedTo salt roots processes, consistent_of_no_stragglers hnodup h⟩

end Consistency

def codexRoot : DesktopRoot where
  file name := if name = "codex-desktop.desktop" then .content [] else .missing
  paths name h := by
    have hname : name = "codex-desktop.desktop" := by
      by_contra hne
      exact h (if_neg hne)
    rw [hname]
    decide

def treeProcess (pid ppid : Nat) (cgroupContent : String) : RawProcess where
  identity := ⟨"boot", pid, 1, 1000⟩
  ppid := ppid
  comm := "codex"
  exeBasename := some "codex"
  cgroupContent := cgroupContent
  applicationKey := ""
  desktopEntryId := none
  groupingResolution := .unknown
  cpuJiffies := 1
  rssBytes := .known 1
  pssBytes := .known 1
  fdUsed := .known 1
  fdSoftLimit := .known 10
  fdPercentOfSoftLimit := .known 10

def codexProcess : RawProcess :=
  treeProcess 10 1 "0::/user.slice/app-codex-desktop-970898.scope"

def transientProcess : RawProcess := treeProcess 11 10 "0::/user.slice/run-p10-i1.scope"

def sliceProcess : RawProcess := treeProcess 12 11 "0::/user.slice"

def codexTree : List RawProcess := [codexProcess, transientProcess, sliceProcess]

theorem nodup_codexTree : (codexTree.map RawProcess.pid).Nodup := by decide

theorem adopts_transientProcess :
    Adopts [codexRoot] codexTree transientProcess "codex-desktop.desktop" := by
  have hown : ownDesktopId [codexRoot] transientProcess = none := by decide +kernel
  have hparent : parentOf codexTree transientProcess = some codexProcess := by decide +kernel
  have hcodex : ownDesktopId [codexRoot] codexProcess = some "codex-desktop.desktop" := by
    decide +kernel
  exact ⟨by decide +kernel, hown, .next hown hparent (.stop hcodex)⟩

/-- Its own child does not, so the two are in different groups. -/
theorem slice_child_stays_behind :
    (codexTree.map RawProcess.pid).Nodup ∧
      ((resolveGrouping 42 [codexRoot] codexTree).map fun processes =>
        processes.map fun p => (p.pid, p.applicationKey, p.desktopEntryId)) =
        some [(10, "codex-desktop.desktop", some "codex-desktop.desktop"),
          (11, "codex-desktop.desktop", some "codex-desktop.desktop"),
          (12, "cgroup:99ab6f7e1d01a8b46cda255c9072615f", none)] ∧
      ¬ ∃ assigned, ConsistentGrouping 42 [codexRoot] codexTree assigned := by
  refine ⟨nodup_codexTree, by decide +kernel, ?_⟩
  intro hconsistent
  obtain ⟨assigned, hassigned⟩ := hconsistent
  have hslice : sliceProcess ∈ codexTree := by decide +kernel
  have htransient : transientProcess ∈ codexTree := by decide +kernel
  exact no_stragglers nodup_codexTree hassigned hslice htransient
    ⟨by decide +kernel, by decide, _, adopts_transientProcess⟩

def directChild : RawProcess := treeProcess 13 10 "0::/user.slice"

/-- With that child instead the tree is consistent. -/
theorem direct_child_consistent : ∃ assigned,
    ConsistentGrouping 42 [codexRoot] [codexProcess, transientProcess, directChild] assigned := by
  apply (grouping_consistent_iff (by decide)).mpr
  intro child hchild parent hparent hstraggler
  obtain ⟨hscope, hpid, desktopId, hadopts⟩ := hstraggler
  have hscopes : ∀ p ∈ [codexProcess, transientProcess, directChild],
      cgroupScope p.cgroupContent = none → p.ppid = 10 := by decide +kernel
  have hdesktop : ∀ p ∈ [codexProcess, transientProcess, directChild],
      p.pid = 10 → (ownDesktopId [codexRoot] p).isSome := by decide +kernel
  have hsome := hdesktop parent hparent (hpid.trans (hscopes child hchild hscope))
  rw [hadopts.2.1] at hsome
  cases hsome

end Telemetry
end LocalDesk
