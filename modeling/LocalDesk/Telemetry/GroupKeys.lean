import LocalDesk.Data.UuidOrder
import LocalDesk.Telemetry.Grouping

/-!
# The keys of grouped processes

Whatever the processes are, both passes of the grouping come to an end, and every key and desktop
entry that they give can be sent.
-/

namespace LocalDesk
namespace Telemetry

open Checks

structure Assignment.Fits (assignment : Assignment) : Prop where
  applicationKey : StringFits assignment.applicationKey
  desktopEntryId : ∀ desktop ∈ assignment.desktopEntryId, StringFits desktop

theorem hexDigits_plain {count n : Nat} {c : Char} (h : c ∈ Uuid.hexDigits count n) :
    c.utf8Size = 1 ∧ c ≠ '\x00' := by
  have hall : ∀ m < 16, (Uuid.hexDigit m).utf8Size = 1 ∧ Uuid.hexDigit m ≠ '\x00' := by decide
  induction count generalizing n with
  | zero => exact absurd h List.not_mem_nil
  | succ count ih =>
    rw [Uuid.hexDigits, List.mem_append] at h
    cases h with
    | inl h => exact ih h
    | inr h =>
      rw [List.mem_singleton.mp h]
      exact hall _ (Nat.mod_lt n (by decide))

theorem hexKey_fits {kind : String} (hkind : kind.utf8ByteSize ≤ 256)
    (hnul : '\x00' ∉ kind.toList) (a b : Nat) :
    StringFits (kind ++ ":" ++ String.ofList (Uuid.hexDigits 16 a ++ Uuid.hexDigits 16 b)) := by
  have hlength : (Uuid.hexDigits 16 a ++ Uuid.hexDigits 16 b).length = 32 := by
    rw [List.length_append, Uuid.length_hexDigits, Uuid.length_hexDigits]
  have hplain : ∀ c ∈ Uuid.hexDigits 16 a ++ Uuid.hexDigits 16 b, c.utf8Size = 1 ∧ c ≠ '\x00' := by
    intro c hc
    cases List.mem_append.mp hc with
    | inl hc => exact hexDigits_plain hc
    | inr hc => exact hexDigits_plain hc
  generalize Uuid.hexDigits 16 a ++ Uuid.hexDigits 16 b = digits at hlength hplain ⊢
  have hsize : Text.utf8Length digits = 32 := by
    rw [Text.utf8Length, List.map_congr_left fun c hc => (hplain c hc).1, List.map_const',
      List.sum_replicate, hlength]
    rfl
  have hcolon : (":" : String).utf8ByteSize = 1 := by decide
  have hbytes : (kind ++ ":" ++ String.ofList digits).utf8ByteSize = kind.utf8ByteSize + 33 := by
    rw [String.utf8ByteSize_append, String.utf8ByteSize_append, hcolon,
      String.utf8ByteSize_ofList, Text.utf8Len_eq, hsize]
  refine ⟨?_, ?_, ?_⟩
  · intro hempty
    rw [hempty] at hbytes
    have hzero : ("" : String).utf8ByteSize = 0 := by decide
    omega
  · rw [hbytes, maxStringBytes]
    omega
  · intro hmem
    simp only [String.toList_append, String.toList_ofList, List.mem_append] at hmem
    obtain (hmem | hmem) | hmem := hmem
    · exact hnul hmem
    · exact absurd hmem (by decide)
    · exact (hplain _ hmem).2 rfl

theorem opaqueKey_fits {kind : String} (hkind : kind.utf8ByteSize ≤ 256)
    (hnul : '\x00' ∉ kind.toList) (material : String) (salt : Nat) :
    StringFits (opaqueKey kind material salt) :=
  hexKey_fits hkind hnul _ _

theorem unknownAssignment_fits (process : RawProcess) (salt : Nat) :
    (unknownAssignment process salt).Fits :=
  ⟨opaqueKey_fits (by decide) (by decide) _ _, fun _ h => by cases h⟩

theorem scopeAssignment_fits (scope : String) (salt : Nat) : (scopeAssignment scope salt).Fits :=
  ⟨opaqueKey_fits (by decide) (by decide) _ _, fun _ h => by cases h⟩

theorem desktopIdForScope_fits {scope desktopId : String} {roots : List DesktopRoot}
    (h : desktopIdForScope scope roots = some desktopId) : StringFits desktopId := by
  unfold desktopIdForScope at h
  dsimp only at h
  split_ifs at h
  obtain ⟨root, -, hroot⟩ := List.exists_of_findSome?_eq_some h
  obtain ⟨candidate, -, hcandidate⟩ := List.exists_of_findSome?_eq_some hroot
  split_ifs at hcandidate with hfile
  cases hcandidate
  have hpath := root.paths _ (of_decide_eq_true hfile)
  refine ⟨?_, Nat.le_of_lt hpath.1, hpath.2⟩
  intro hempty
  have hlist := congrArg String.toList hempty
  rw [String.toList_ofList] at hlist
  have hlength := congrArg List.length hlist
  rw [List.length_append] at hlength
  have hsuffix : (".desktop".toList).length = 8 := by decide
  have hnone : ("" : String).toList.length = 0 := by decide
  omega

theorem directAssignment_fits {salt : Nat} {roots : List DesktopRoot} {process : RawProcess}
    {assignment : Assignment} (h : directAssignment salt roots process = some assignment) :
    assignment.Fits := by
  obtain ⟨scope, -, hscope⟩ := Option.map_eq_some_iff.mp h
  cases hid : desktopIdForScope scope roots with
  | none =>
    rw [hid] at hscope
    cases hscope
    exact scopeAssignment_fits scope salt
  | some desktopId =>
    rw [hid] at hscope
    cases hscope
    have hfits := desktopIdForScope_fits hid
    exact ⟨hfits, fun _ h => Option.some.inj h ▸ hfits⟩

section Resolution

variable {salt : Nat} {roots : List DesktopRoot} {processes : List RawProcess}
  {direct : Nat → Option Assignment}

theorem directAssignments_fits {pid : Nat} {assignment : Assignment}
    (h : directAssignments salt roots processes pid = some assignment) : assignment.Fits := by
  have hall : ∀ pid assignment, directAssignments salt roots processes pid = some assignment →
      assignment.Fits := by
    apply List.foldlRecOn (motive := fun direct : Nat → Option Assignment =>
      ∀ pid assignment, direct pid = some assignment → assignment.Fits) processes
    · intro pid assignment hnone
      cases hnone
    · intro direct hdirect process _ pid assignment hfound
      beta_reduce at hfound
      cases hassignment : directAssignment salt roots process with
      | none =>
        rw [hassignment] at hfound
        exact hdirect pid assignment hfound
      | some given =>
        rw [hassignment] at hfound
        dsimp only at hfound
        by_cases hpid : pid = process.pid
        · rw [hpid, Function.update_self] at hfound
          cases hfound
          exact directAssignment_fits hassignment
        · rw [Function.update_of_ne hpid] at hfound
          exact hdirect pid assignment hfound
  exact hall pid assignment h

def Visit.Fits (visit : Visit) : Prop :=
  ∀ pid assignment, visit.resolved pid = some assignment → assignment.Fits

theorem Visit.Fits.resolve {visit : Visit} (h : visit.Fits) {pid : Nat} {assignment : Assignment}
    (hassignment : assignment.Fits) : (visit.resolve pid assignment).Fits := by
  intro other found hfound
  by_cases hother : other = pid
  · have hsome : Function.update visit.resolved pid (some assignment) other = some found := hfound
    rw [hother, Function.update_self] at hsome
    cases hsome
    exact hassignment
  · have hsome : Function.update visit.resolved pid (some assignment) other = some found := hfound
    rw [Function.update_of_ne hother] at hsome
    exact h other found hsome

theorem inheritFrom_fits {process : RawProcess} {parent : Option Assignment}
    (h : ∀ assignment ∈ parent, assignment.Fits) : (inheritFrom salt process parent).Fits := by
  unfold inheritFrom
  cases hparent : parent.filter fun parent => parent.groupingResolution ≠ .unknown with
  | none => exact unknownAssignment_fits process salt
  | some found =>
    have hfits := h found (Option.filter_eq_some_iff.mp hparent).1
    exact ⟨hfits.applicationKey, hfits.desktopEntryId⟩

theorem resolveProcess_fits (hdirect : ∀ pid assignment, direct pid = some assignment →
      assignment.Fits) {fuel : Nat} {process : RawProcess} {visit : Visit} (hvisit : visit.Fits)
    {found : Assignment × Visit} (h : resolveProcess salt processes direct fuel process visit =
      some found) : found.1.Fits ∧ found.2.Fits := by
  induction fuel generalizing process visit found with
  | zero => cases h
  | succ fuel ih =>
    rw [resolveProcess] at h
    cases hresolved : visit.resolved process.pid with
    | some assignment =>
      rw [hresolved] at h
      cases h
      exact ⟨hvisit _ _ hresolved, hvisit⟩
    | none =>
      rw [hresolved] at h
      dsimp only at h
      cases hdirected : direct process.pid with
      | some assignment =>
        rw [hdirected] at h
        cases h
        have hfits := hdirect _ _ hdirected
        exact ⟨hfits, hvisit.resolve hfits⟩
      | none =>
        rw [hdirected] at h
        dsimp only at h
        split_ifs at h
        · cases h
          have hfits := unknownAssignment_fits process salt
          exact ⟨hfits, hvisit.resolve hfits⟩
        · cases hparent : parentOf processes process with
          | none =>
            rw [hparent] at h
            cases h
            have hfits : (inheritFrom salt process none).Fits :=
              inheritFrom_fits fun _ h => by cases h
            exact ⟨hfits, @Visit.Fits.resolve ((visit.mark process.pid true).mark process.pid false)
              hvisit _ _ hfits⟩
          | some parent =>
            rw [hparent] at h
            obtain ⟨inner, hinner, h⟩ := Option.map_eq_some_iff.mp h
            have hmarked : (visit.mark process.pid true).Fits := hvisit
            have hboth := ih hmarked hinner
            cases h
            have hfits : (inheritFrom salt process (some inner.1)).Fits :=
              inheritFrom_fits fun _ h => Option.some.inj h ▸ hboth.1
            exact ⟨hfits, @Visit.Fits.resolve (inner.2.mark process.pid false) hboth.2 _ _ hfits⟩

end Resolution

section Totality

variable {salt : Nat} {roots : List DesktopRoot} {processes : List RawProcess}
  {direct : Nat → Option Assignment}

theorem resolveProcess_isSome {fuel : Nat} {process : RawProcess} {visit : Visit}
    (hmem : process ∈ processes) (hfuel : (unvisited processes visit).length < fuel) :
    (resolveProcess salt processes direct fuel process visit).isSome := by
  induction fuel generalizing process visit with
  | zero => exact absurd hfuel (Nat.not_lt_zero _)
  | succ fuel ih =>
    rw [resolveProcess]
    cases visit.resolved process.pid with
    | some assignment => rfl
    | none =>
      dsimp only
      cases direct process.pid with
      | some assignment => rfl
      | none =>
        dsimp only
        split_ifs with hvisiting
        · rfl
        · have hfresh : visit.visiting process.pid = false := by simpa using hvisiting
          have hless := unvisited_mark hmem hfresh
          cases hparent : parentOf processes process with
          | none => rfl
          | some parent =>
            dsimp only
            rw [Option.isSome_map]
            exact ih (parentOf_mem hparent) (by omega)

theorem resolveFrom_isSome {rest : List RawProcess} (hsub : rest ⊆ processes) (visit : Visit) :
    (resolveFrom salt processes direct rest visit).isSome := by
  induction rest generalizing visit with
  | nil => rfl
  | cons process rest ih =>
    rw [List.cons_subset] at hsub
    have hfuel : (unvisited processes visit).length < processes.length + 1 :=
      Nat.lt_succ_of_le (List.length_filter_le _ _)
    obtain ⟨found, hfound⟩ := Option.isSome_iff_exists.mp
      (resolveProcess_isSome hsub.1 hfuel)
    rw [resolveFrom, hfound, Option.bind_some, Option.isSome_map]
    exact ih hsub.2 found.2

def unadopted (processes : List RawProcess) : List RawProcess :=
  processes.filter fun process => process.groupingResolution = .cgroupScope

theorem adoption_eq_some {process : RawProcess} {assignment : Assignment}
    (h : adoption processes process = some assignment) :
    process.groupingResolution = .cgroupScope ∧ assignment.groupingResolution = .inheritedParent ∧
      ∃ ancestor, nearestDesktopResolvedAncestor process processes = some ancestor ∧
        assignment = ⟨ancestor.applicationKey, ancestor.desktopEntryId, .inheritedParent⟩ := by
  unfold adoption at h
  split_ifs at h with hscope
  obtain ⟨ancestor, hancestor, rfl⟩ := Option.map_eq_some_iff.mp h
  exact ⟨not_not.mp hscope, rfl, ancestor, hancestor, rfl⟩

theorem unadopted_adoptAll (h : ¬ (processes.all fun process => (adoption processes process).isNone)) :
    (unadopted (adoptAll processes)).length < (unadopted processes).length := by
  have hmap : (unadopted (adoptAll processes)).length =
      ((unadopted processes).filter fun process => (adoption processes process).isNone).length := by
    rw [unadopted, unadopted, adoptAll, List.filter_map, List.length_map, List.filter_filter]
    congr 1
    apply List.filter_congr
    intro process _
    show decide ((((adoption processes process).map process.assign).getD
      process).groupingResolution = .cgroupScope) = _
    cases hadoption : adoption processes process with
    | none => simp
    | some assignment =>
      have hgiven := (adoption_eq_some hadoption).2.1
      simp [RawProcess.assign, hgiven]
  rw [hmap, List.length_filter_lt_length_iff_exists]
  rw [List.all_eq_true, not_forall] at h
  obtain ⟨process, hprocess⟩ := h
  rw [Classical.not_imp] at hprocess
  obtain ⟨assignment, hassignment⟩ : ∃ assignment, adoption processes process = some assignment := by
    cases hadoption : adoption processes process with
    | none => simp [hadoption] at hprocess
    | some assignment => exact ⟨assignment, rfl⟩
  refine ⟨process, ?_, hprocess.2⟩
  rw [unadopted, List.mem_filter]
  exact ⟨hprocess.1, decide_eq_true (adoption_eq_some hassignment).1⟩

theorem adoptLoop_isSome {fuel : Nat} (h : (unadopted processes).length < fuel) :
    (adoptLoop fuel processes).isSome := by
  induction fuel generalizing processes with
  | zero => exact absurd h (Nat.not_lt_zero _)
  | succ fuel ih =>
    rw [adoptLoop]
    split_ifs with hall
    · rfl
    · have hless := unadopted_adoptAll hall
      exact ih (by omega)

theorem resolveGrouping_isSome (salt : Nat) (roots : List DesktopRoot)
    (processes : List RawProcess) : (resolveGrouping salt roots processes).isSome := by
  obtain ⟨resolved, hresolved⟩ := Option.isSome_iff_exists.mp
    (resolveFrom_isSome
      (List.Subset.refl processes) ⟨fun _ => none, fun _ => false⟩)
  have hall : resolveAll salt roots processes = some resolved := hresolved
  have hlength : resolved.length = processes.length := by
    have hmap := congrArg List.length (map_resolveFrom (f := fun _ => ()) (fun _ _ => rfl) hresolved)
    rw [List.length_map, List.length_map] at hmap
    exact hmap
  rw [resolveGrouping, hall, Option.bind_some]
  apply adoptLoop_isSome
  have hle : (unadopted resolved).length ≤ resolved.length := List.length_filter_le _ _
  omega

def RawProcess.Keyed (process : RawProcess) : Prop :=
  StringFits process.applicationKey ∧ ∀ desktop ∈ process.desktopEntryId, StringFits desktop

theorem keyed_assign (process : RawProcess) {assignment : Assignment} (h : assignment.Fits) :
    (process.assign assignment).Keyed :=
  ⟨h.applicationKey, h.desktopEntryId⟩

theorem keyed_resolveFrom (hdirect : ∀ pid assignment, direct pid = some assignment →
      assignment.Fits) {rest grouped : List RawProcess} {visit : Visit} (hvisit : visit.Fits)
    (h : resolveFrom salt processes direct rest visit = some grouped) :
    ∀ process ∈ grouped, process.Keyed := by
  induction rest generalizing visit grouped with
  | nil =>
    cases h
    exact fun _ h => absurd h List.not_mem_nil
  | cons process rest ih =>
    rw [resolveFrom] at h
    obtain ⟨found, hfound, h⟩ := Option.bind_eq_some_iff.mp h
    obtain ⟨resolved, hresolved, h⟩ := Option.map_eq_some_iff.mp h
    have hboth := resolveProcess_fits hdirect hvisit hfound
    rw [← h, List.forall_mem_cons]
    exact ⟨keyed_assign process hboth.1, ih hboth.2 hresolved⟩

theorem nearestFrom_mem {turns parentPid : Nat} {ancestor : RawProcess}
    (h : nearestFrom processes turns parentPid = some ancestor) : ancestor ∈ processes := by
  induction turns generalizing parentPid with
  | zero => cases h
  | succ turns ih =>
    rw [nearestFrom] at h
    cases hfind : processes.find? fun candidate => candidate.pid = parentPid with
    | none =>
      rw [hfind] at h
      cases h
    | some parent =>
      rw [hfind] at h
      dsimp only at h
      split at h
      · cases h
        exact List.mem_of_find?_eq_some hfind
      · cases h
      · exact ih h
      · exact ih h

theorem keyed_adoptAll (h : ∀ process ∈ processes, process.Keyed) :
    ∀ process ∈ adoptAll processes, process.Keyed := by
  rw [adoptAll, List.forall_mem_map]
  intro process hprocess
  cases hadoption : adoption processes process with
  | none => exact h process hprocess
  | some assignment =>
    obtain ⟨-, -, ancestor, hancestor, rfl⟩ := adoption_eq_some hadoption
    exact h ancestor (nearestFrom_mem hancestor)

theorem keyed_adoptLoop {fuel : Nat} {grouped : List RawProcess}
    (hkeyed : ∀ process ∈ processes, process.Keyed) (h : adoptLoop fuel processes = some grouped) :
    ∀ process ∈ grouped, process.Keyed := by
  induction fuel generalizing processes with
  | zero => cases h
  | succ fuel ih =>
    rw [adoptLoop] at h
    split_ifs at h
    · cases h
      exact hkeyed
    · exact ih (keyed_adoptAll hkeyed) h

theorem keyed_resolveGrouping {grouped : List RawProcess}
    (h : resolveGrouping salt roots processes = some grouped) :
    ∀ process ∈ grouped, process.Keyed := by
  obtain ⟨resolved, hresolved, h⟩ := Option.bind_eq_some_iff.mp h
  have hfrom : resolveFrom salt processes (directAssignments salt roots processes) processes
      ⟨fun _ => none, fun _ => false⟩ = some resolved := hresolved
  have hkeyed := keyed_resolveFrom (fun _ _ hsome => directAssignments_fits hsome)
    (fun _ _ hsome => by cases hsome) hfrom
  exact keyed_adoptLoop hkeyed h

end Totality

end Telemetry
end LocalDesk
