import LocalDesk.Transfers.StagedWrite

/-!
# Downloads

One run of a download, from the first call of its worker to the last.  The loop keeps
three numbers together: the offset it reads at, the length of the part file, and the
progress that is filed.  `Settled` is how every run ends: the part file was installed
as a whole, or no file but the part file was touched.
-/

namespace LocalDesk
namespace Transfers

open Remote Mutation Effects Effects.Environment Files TransferTask AtomicStore ReliableStore

namespace Attempt

variable {S : Type} [ReliableStore S] {j : Attempt}

section Silent

variable {ε : Type} {placed bad : Prop} {φ : World S Outside → Prop}

theorem keeps_tell {c : Call} (hc : c.Silent) (hφ : j.Calm φ) :
    j.around.Keeps bad (j.Watched placed φ) (tell c : ExecutorM Answers ε Unit) fun _ => True :=
  Triple.call (M := fun _ => j.Watched placed φ) (watched_stable hφ)
    (fun _ _ _ _ hw h => silent_step hc hφ hw h) fun _ => Triple.pure fun _ _ hw => ⟨trivial, hw⟩

theorem keeps_orPanic {α : Type} {o : Option α} {F : α → Prop} {P : Assertion (World S Outside)}
    (h : ∀ a, o = some a → F a) :
    j.around.Keeps bad P (orPanic o : ExecutorM Answers ε α) F := by
  cases o with
  | some a => exact Keeps.pure (h a rfl)
  | none =>
    intro past w _ tr r w' hrun
    cases hrun with
    | call between performed rest => exact (performed.1 : False).elim

theorem keeps_now (hφ : j.Calm φ) :
    j.around.Keeps bad (j.Watched placed φ) (now : ExecutorM Answers ε Nat) fun _ => True :=
  keeps_silent (e := .instantNow) trivial hφ fun _ _ _ _ _ => trivial

theorem keeps_newControl (hφ : j.Calm φ) (timeout : Nat) :
    j.around.Keeps bad (j.Watched placed φ)
      (newControl timeout : ExecutorM Answers ε RemoteIoControl) fun _ => True := by
  refine Keeps.andThen (keeps_now hφ) fun _ _ => ?_
  refine Keeps.andThen (F := fun _ => True) ?_ fun _ _ => Keeps.pure trivial
  exact keeps_silent (e := .newFlag) trivial hφ fun _ _ _ _ _ => trivial

theorem keeps_operationControl (hφ : j.Calm φ) (executor : TransferExecutor Answers)
    (control : RemoteIoControl) :
    j.around.Keeps bad (j.Watched placed φ)
      (executor.operationControl control : ExecutorM Answers ε RemoteIoControl) fun _ => True :=
  Keeps.andThen (keeps_now hφ) fun _ _ => Keeps.pure trivial

theorem keeps_throttle (hφ : j.Calm φ) (expected started : Nat) (control : RemoteIoControl) :
    j.around.Keeps (¬ j.sure) (j.Watched placed φ)
      (TransferExecutor.throttle expected started control : ExecutorM Answers RemoteError Unit)
      fun _ => True := by
  refine Keeps.forever (I := fun _ => True) (fun _ _ => ?_) trivial
  refine Keeps.andThen (keeps_now hφ) fun instant _ => ?_
  split
  · exact Keeps.pure trivial
  · refine Keeps.andThen (keeps_adapt (keeps_check hφ control .write)) fun _ _ => ?_
    refine Keeps.andThen (F := fun _ => True) ?_ fun duration _ => ?_
    · exact Keeps.andThen (keeps_now hφ) fun _ _ => keeps_orPanic fun _ _ => trivial
    · refine Keeps.andThen (keeps_tell trivial hφ) fun _ _ => Keeps.pure trivial

theorem keeps_throttleTo (hφ : j.Calm φ) (executor : TransferExecutor Answers)
    (limit : BandwidthLimit) (bytes started : Nat) (control : RemoteIoControl) :
    j.around.Keeps (¬ j.sure) (j.Watched placed φ)
      (executor.throttleTo limit bytes started control) fun _ => True := by
  unfold TransferExecutor.throttleTo
  split
  · exact Keeps.pure trivial
  · exact Keeps.andThen (F := fun _ => True) (keeps_orPanic fun _ _ => trivial)
      fun expected _ => keeps_throttle hφ expected started control

end Silent

section Progress

variable {recorded bytes : Nat} {total speed : Option Nat} {w : World S Outside}

theorem Filing.record (h : j.Filing recorded w)
    (htotal : j.sure → ∀ n, total = some n → n = j.content.length) {u : Unit}
    (hok : outcome (Critical.update j.id
      (TransferTask.recordProgress j.token bytes total speed w.clock)) w.queue = .ok u) :
    j.Filing bytes { w with queue := after (Critical.update j.id
      (TransferTask.recordProgress j.token bytes total speed w.clock)) w.queue } := by
  refine Critical.at_of_update_ok h (within_of_exec (A := fun _ => True)
    (.recordProgress j.token bytes total speed w.clock) rfl trivial) hok
    fun t a t' ht hrun => ?_
  obtain ⟨hsample, hstore⟩ := recordProgress_ok.mp hrun
  have hknown : ∀ n, total.or t.progress.totalBytes = some n → t.revision < u64Max →
      j.sure → n = j.content.length ∧ bytes ≤ n := by
    intro n hn hlt hsure
    refine ⟨?_, hsample.htotal n hn⟩
    rcases Option.or_eq_some_iff.mp hn with hn | ⟨_, hn⟩
    · exact htotal hsure n hn
    · exact (ht.1.total hlt hsure n hn).1
  rcases storeProgress_ok.mp hstore with ⟨heq, _, rfl⟩ | ⟨_, _, rfl⟩
  · -- The same sample was filed before.
    have hsame : j.Follows bytes t' := by
      have htotals := congrArg TransferProgress.totalBytes heq
      exact ⟨ht.1.undone, ht.1.held, fun _ => by rw [heq], fun hlt hsure n hn =>
        hknown n (htotals.symm.trans hn) hlt hsure⟩
    exact ⟨⟨hsame, ht.2⟩, fun _ => ⟨hsame, ht.2⟩⟩
  · have hheadroom : saturatingAddU64 t.revision 1 < u64Max → t.revision < u64Max := by
      rw [saturatingAddU64]
      omega
    refine ⟨⟨⟨ht.1.undone, ht.1.held, fun _ => rfl, fun hlt hsure n hn => ?_⟩, fun hsure => ?_⟩,
      fun hsaturated => ?_⟩
    · exact hknown n hn (hheadroom hlt) hsure
    · exact ⟨(ht.2 hsure).1, le_rfl⟩
    · have hlast : ¬ t.revision < u64Max := by
        intro hlt
        have hnext : saturatingAddU64 t.revision 1 = t.revision := hsaturated
        rw [saturatingAddU64] at hnext
        omega
      exact ⟨⟨ht.1.undone, ht.1.held, fun hlt => absurd hlt hlast, fun hlt => absurd hlt hlast⟩,
        ht.2⟩

theorem Filing.accepts (h : j.Filing recorded w) (hsure : j.sure) (hhealthy : healthy w.queue.store)
    (hspeed : ∀ n, speed = some n → n ≤ maxBandwidthBytesPerSecond)
    (hrevision : ∀ t, w.queue.tasks[j.id]? = some t → t.revision < u64Max)
    (htotal : ∀ n, total = some n → n = j.content.length)
    (hbytes : recorded ≤ bytes ∧ bytes ≤ j.content.length) :
    outcome (Critical.update j.id
      (TransferTask.recordProgress j.token bytes total speed w.clock)) w.queue = .ok () := by
  obtain ⟨t, ht, hfollows, hstate⟩ := h.filed
  obtain ⟨hrunning, htime⟩ := hstate hsure
  have hlt := hrevision t ht
  have hold : ∀ n, t.progress.totalBytes = some n → n = j.content.length := fun n hn =>
    (hfollows.total hlt hsure n hn).1
  have hsample : t.Sample j.token bytes total speed w.clock := by
    refine ⟨hfollows.held (by rw [hrunning]; rfl), htime, .inl hrunning, ?_, ?_, ?_, hspeed⟩
    · rw [hfollows.bytes hlt]
      exact hbytes.1
    · intro a b ha hb
      exact (hold a ha).trans (htotal b hb).symm
    · intro n hn
      rcases Option.or_eq_some_iff.mp hn with hn | ⟨_, hn⟩
      · rw [htotal n hn]
        exact hbytes.2
      · rw [hold n hn]
        exact hbytes.2
  by_cases hsame : t.progress = ⟨bytes, total.or t.progress.totalBytes, speed, some w.clock⟩
  · have hrun := recordProgress_ok.mpr ⟨hsample, storeProgress_ok.mpr (.inl ⟨hsame, rfl, rfl⟩)⟩
    exact update_succeeds h.synced hhealthy ht rfl hrun
  · have hrun := recordProgress_ok.mpr ⟨hsample, storeProgress_ok.mpr (.inr ⟨hsame, rfl, rfl⟩)⟩
    exact update_succeeds h.synced hhealthy ht (by rfl) hrun

variable {n : Nat} {path : Path} {written : Nat} {known : Option Nat}

theorem record_spec (htotal : j.sure → ∀ n, total = some n → n = j.content.length)
    (hbytes : j.sure → recorded ≤ bytes ∧ bytes ≤ j.content.length) :
    j.around.Triple (j.Watched (S := S) False (j.Writing n path known written recorded))
      (TransferExecutor.recordProgress j.id j.token bytes total speed :
        ExecutorM Answers RemoteError Unit).run
      (j.Ends j.Aborting fun _ => j.Watched False (j.Writing n path known written bytes)) := by
  refine Triple.andThen (M := fun r : Except ExecutorError Unit =>
    either (fun _ => j.Fails j.Aborting)
      (fun _ => j.Watched False (j.Writing n path known written bytes)) r) ?_ fun r => ends_settle r
  refine Triple.perform (watched_stable (calm_writing _ _ _ _ _)) fun past w r w' hw h => ?_
  obtain ⟨⟨hr, rfl⟩, hfine, _⟩ := h
  have hwriting := hw.2.2
  match r, hr with
  | .ok u, hr =>
    exact hw.step (spares_of_eq rfl) ⟨hwriting.staged, hwriting.holds, hwriting.told,
      hwriting.target, hwriting.task.record htotal hr.symm⟩
  | .error e, hr =>
    have hsure : ¬ j.sure := by
      intro hsure
      obtain ⟨hhealthy, hspeed, hrevision⟩ := hfine (j.steady_of_sure hsure)
      have hok := hwriting.task.accepts hsure hhealthy hspeed hrevision (htotal hsure) (hbytes hsure)
      cases hr.trans hok
    have habort : j.Aborting { w with queue := after (Critical.exec w.clock
        (.recordProgress j.id j.token bytes total speed)) w.queue } :=
      ⟨hwriting.aborting.staged, hwriting.aborting.sole, Critical.preserves_exec w.clock
        (.recordProgress j.id j.token bytes total speed) (lasting_undone fun _ _ h => h)
        w.queue hwriting.task.undone⟩
    exact hw.failsAt (spares_of_eq rfl) habort hsure

end Progress

structure Assigned (j : Attempt) (task : TransferTask) (endpoint : RemoteTransferEndpoint) :
    Prop where
  id : task.id = j.id
  direction : task.direction = .download
  handle : localHandle task = some j.handle
  endpoint : remoteEndpoint task = some endpoint
  policy : task.conflictPolicy = j.policy
  expected : task.expectedDestination = j.expectedDestination
  offset : task.progress.bytesTransferred = j.offset
  size : j.honest → ∀ n, expectedSize task.expectedSource = some n → n = j.content.length
  bounded : j.offset ≤ u64Max ∧ j.content.length ≤ u64Max

structure Equipped (support : RemoteTransferEndpoint → RemoteIoControlSupport)
    (limits : ExecutorLimits) (endpoint : RemoteTransferEndpoint) : Prop where
  protocol : ensureTransferProtocol endpoint.protocol = .ok ()
  control : support endpoint = .supported
  chunk : 0 < limits.chunkBytes ∧ limits.chunkBytes ≤ maxRemoteChunkBytes

theorem goal_length (hstart : j.start.length = j.offset) :
    j.goal.length = max j.offset j.content.length := by
  rw [goal, List.length_append, List.length_drop, hstart]
  omega

theorem goal_drop (hstart : j.start.length = j.offset) {o : Nat} (ho : j.offset ≤ o) :
    j.goal.drop o = j.content.drop o := by
  rw [goal, List.drop_append, List.drop_eq_nil_of_le (by omega), List.nil_append, hstart,
    List.drop_drop]
  congr 1
  omega

section Chunks

variable {support : RemoteTransferEndpoint → RemoteIoControlSupport} {limits : ExecutorLimits}
  {pace : Nat → Nat → Option Nat} {task : TransferTask} {endpoint : RemoteTransferEndpoint}
  {n : Nat} {path : Path} {known : Option Nat} {written recorded : Nat}

theorem writing_fails (_e : RemoteError) (past : List (World S Outside × World S Outside))
    (w : World S Outside) (hsure : ¬ j.sure)
    (hw : j.Watched False (j.Writing n path known written recorded) past w) :
    j.Fails j.Aborting past w :=
  hw.fails hsure Writing.aborting

theorem throttleAndRecord_spec (hassigned : j.Assigned task endpoint) {bytes : Nat}
    {total : Option Nat} {started : Nat} {control : RemoteIoControl}
    (htotal : j.sure → ∀ n, total = some n → n = j.content.length)
    (hbytes : j.sure → recorded ≤ bytes ∧ bytes ≤ j.content.length) :
    j.around.Triple (j.Watched (S := S) False (j.Writing n path known written recorded))
      ((handleExecutor j.uid support limits pace).throttleAndRecord task j.token bytes total started
        control).run
      (j.Ends j.Aborting fun _ => j.Watched False (j.Writing n path known written bytes)) := by
  have hcalm : j.Calm (S := S) (j.Writing n path known written recorded) := calm_writing _ _ _ _ _
  refine Keeps.thenDo (keeps_throttleTo hcalm _ _ _ _ _) writing_fails fun _ _ => ?_
  refine Keeps.thenDo (keeps_adapt (keeps_check hcalm control .write)) writing_fails fun _ _ => ?_
  refine Keeps.thenDo (B := ¬ j.sure) (keeps_now hcalm) writing_fails fun instant _ => ?_
  rw [hassigned.id]
  exact record_spec htotal hbytes

theorem storeChunk_spec (hassigned : j.Assigned task endpoint) {bytes : List UInt8}
    {started : Nat} {control : RemoteIoControl}
    (htotal : j.sure → ∀ n, known = some n → n = j.content.length)
    (hbytes : j.honest → bytes <+: j.goal.drop written ∧ written ≤ j.goal.length ∧
      written + bytes.length ≤ u64Max)
    (hsure : j.sure → bytes.length ≤ maxRemoteChunkBytes ∧
      written + bytes.length ≤ j.content.length) :
    j.around.Triple (j.Watched (S := S) False (j.Writing n path known written written))
      ((handleExecutor j.uid support limits pace).storeChunk task j.token control known started
        j.writeHandle written bytes).run
      (j.Ends j.Aborting fun next past w => (j.honest → next = written + bytes.length) ∧
        j.Watched False (j.Writing n path known next next) past w) := by
  have hnext : j.honest → saturatingAddU64 written bytes.length = written + bytes.length := by
    intro hhonest
    have := (hbytes hhonest).2.2
    rw [saturatingAddU64]
    omega
  unfold TransferExecutor.storeChunk
  split
  · next hempty =>
    rw [List.isEmpty_iff] at hempty
    subst hempty
    exact Triple.pure fun past w hw => ⟨fun _ => rfl, hw⟩
  · next hnonempty =>
    refine Keeps.thenDo (B := ¬ j.sure) (keeps_operationControl (calm_writing _ _ _ _ _) _ _)
      writing_fails fun operation _ => ?_
    refine Triple.andThen (M := fun (receipt : LocalWriteReceipt) past w =>
      receipt.nextOffset = saturatingAddU64 written bytes.length ∧ j.Watched False
        (j.Writing n path known (saturatingAddU64 written bytes.length) written) past w)
      (Triple.embed (write_spec hbytes (fun h => ⟨fun hnil => ?_, (hsure h).1⟩) operation))
      fun receipt => Triple.fact fun hreceipt => ?_
    · rw [hnil] at hnonempty
      exact hnonempty rfl
    refine Keeps.thenDo (B := ¬ j.sure) (Keeps.failIf fun hne => absurd hreceipt hne) writing_fails
      fun _ _ => ?_
    refine Triple.andThen (throttleAndRecord_spec hassigned htotal fun h => ?_) fun _ => ?_
    · rw [hnext (j.honest_of_sure h)]
      exact ⟨by omega, (hsure h).2⟩
    · exact Triple.pure fun past w hw => ⟨hnext, hw⟩

theorem read_spec {session : OpenSession} {request : RemoteReadRequest} (control : RemoteIoControl)
    (hsized : j.honest → (expectedSize request.expectedIdentity).isSome → known.isSome) :
    j.inside.Triple (j.Watched (S := S) False (j.Writing n path known written recorded))
      (remoteMethod (.readChunk session request control) rfl :
        AdapterM Answers RemoteReadChunk).run
      (j.Ends j.Aborting fun chunk past w =>
        ((j.honest → Faithful j.content ((known.or chunk.identity.sizeBytes).isSome) chunk) ∧
          (j.sure → Progressing j.content request chunk)) ∧
        j.Watched False
          (j.Writing n path (known.or chunk.identity.sizeBytes) written recorded) past w) := by
  refine Triple.andThen (M := fun r : Except RemoteError RemoteReadChunk =>
    either (fun _ => j.Fails j.Aborting) (fun chunk past w =>
      ((j.honest → Faithful j.content ((known.or chunk.identity.sizeBytes).isSome) chunk) ∧
        (j.sure → Progressing j.content request chunk)) ∧
      j.Watched False
        (j.Writing n path (known.or chunk.identity.sizeBytes) written recorded) past w) r) ?_
    fun r => Triple.settle fun past w hw => ?_
  · refine Triple.perform (inside_stable (calm_writing _ _ _ _ _)) fun past w r w' hw h => ?_
    obtain ⟨r', rfl, ⟨⟨owner, told, placed⟩, ⟨hread, howner, _⟩, rfl⟩, _⟩ := h
    subst howner
    have hwriting := hw.2.2
    match r', hread with
    | .error e, hread =>
      obtain ⟨htold, hsteady⟩ := hread
      have habort := hwriting.aborting
      exact hw.failsAt (spares_of_eq rfl) ⟨habort.staged, habort.sole, habort.task⟩
        fun hsure => hsteady (j.steady_of_sure hsure)
    | .ok chunk, hread =>
      obtain ⟨htold, hfaithful, hprogressing⟩ := hread
      have hknown : told = true → (known.or chunk.identity.sizeBytes).isSome := by
        intro hv
        rw [Option.isSome_or, Bool.or_eq_true]
        rcases Bool.or_eq_true _ _ |>.mp (htold.symm.trans hv) with hw | hchunk
        · exact .inl (hwriting.told hw)
        · exact .inr hchunk
      refine ⟨⟨fun hhonest => ?_, fun hsure => hprogressing (j.steady_of_sure hsure)⟩,
        hw.step (spares_of_eq rfl) ⟨hwriting.staged, hwriting.holds, hknown, hwriting.target,
          hwriting.task⟩⟩
      obtain ⟨hbytes, hsize, heof⟩ := hfaithful hhonest
      refine ⟨hbytes, hsize, fun h => (heof h).imp_left fun hsize => ?_⟩
      rcases hsize with hv | hexpected
      · exact hknown hv
      · rw [Option.isSome_or, Bool.or_eq_true]
        exact .inl (hsized hhonest hexpected)
  · cases r <;> exact hw

end Chunks

section Loop

variable {support : RemoteTransferEndpoint → RemoteIoControlSupport} {limits : ExecutorLimits}
  {pace : Nat → Nat → Option Nat} {task : TransferTask} {endpoint : RemoteTransferEndpoint}
  {n : Nat} {path : Path}

structure Reads (j : Attempt) (task : TransferTask) (reading : TransferExecutor.Reading) :
    Prop where
  start : j.offset ≤ reading.offset
  goal : reading.offset ≤ j.goal.length
  size : ∀ n, reading.total = some n → n = j.content.length
  sized : (expectedSize task.expectedSource).isSome → reading.total.isSome
  range : j.sure → reading.offset ≤ j.content.length

/-- The loop is over.  The size is known, or the content is read to its end. -/
structure ReadAll (j : Attempt) (task : TransferTask) (reading : TransferExecutor.Reading) :
    Prop extends j.Reads task reading where
  ended : reading.total.isSome ∨ j.content.length ≤ reading.offset
  all : j.sure → reading.offset = j.content.length

def Loop (j : Attempt) (n : Nat) (path : Path) (F : TransferExecutor.Reading → Prop)
    (reading : TransferExecutor.Reading) : Assertion (World S Outside) :=
  fun past w => (j.honest → F reading) ∧
    j.Watched False (j.Writing n path reading.total reading.offset reading.offset) past w

theorem downloadRound_spec (hassigned : j.Assigned task endpoint)
    (hequipped : j.sure → Equipped support limits endpoint) (hstart : j.start.length = j.offset)
    {session : OpenSession} {control : RemoteIoControl} {remotePath : RemotePath} {started : Nat}
    (reading : TransferExecutor.Reading) :
    j.around.Triple (j.Loop (S := S) n path (j.Reads task) reading)
      ((handleExecutor j.uid support limits pace).downloadRound task j.token session control
        remotePath started j.writeHandle reading).run
      (j.Ends j.Aborting
        (Sum.elim (j.Loop n path (j.Reads task)) (j.Loop n path (j.ReadAll task)))) := by
  refine Triple.fact fun hreads => ?_
  have hcalm : j.Calm (S := S)
      (j.Writing n path reading.total reading.offset reading.offset) := calm_writing _ _ _ _ _
  have hgoal : j.goal.length ≤ u64Max := by
    have := hassigned.bounded
    rw [goal_length hstart]
    omega
  refine Keeps.thenDo (keeps_adapt (keeps_check hcalm control .read)) writing_fails fun _ _ => ?_
  refine Keeps.thenDo (B := ¬ j.sure) (keeps_operationControl hcalm _ _) writing_fails
    fun operation _ => ?_
  refine Triple.andThen (Triple.embed (read_spec operation fun h => (hreads h).sized))
    fun chunk => ?_
  refine Triple.fact fun hchunk => ?_
  obtain ⟨hfaithful, hprogressing⟩ := hchunk
  refine Keeps.thenDo (Keeps.failIf fun hinvalid hsure => ?_) writing_fails fun _ hvalid => ?_
  · have hp := hprogressing hsure
    rcases hinvalid with hoffset | ⟨hempty, hneof⟩
    · exact hoffset hp.offset
    · have hnil := List.isEmpty_iff.mp hempty
      refine hneof (hp.eof.mpr ?_)
      have := hp.nonempty hnil
      omega
  have hoffset : chunk.offset = reading.offset := by
    by_contra hne
    exact hvalid (.inl hne)
  have hbytes : j.honest → chunk.bytes <+: j.goal.drop reading.offset := by
    intro h
    rw [goal_drop hstart (hreads h).start, ← hoffset]
    exact (hfaithful h).bytes
  have hlength : j.honest → reading.offset + chunk.bytes.length ≤ j.goal.length := by
    intro h
    have := (hbytes h).length_le
    have := (hreads h).goal
    rw [List.length_drop] at *
    omega
  have hcontent : j.sure → reading.offset + chunk.bytes.length ≤ j.content.length := by
    intro hsure
    have h := j.honest_of_sure hsure
    have := (hfaithful h).bytes.length_le
    have := (hreads h).range hsure
    rw [List.length_drop, hoffset] at *
    omega
  have htotal : j.honest → ∀ n, reading.total.or chunk.identity.sizeBytes = some n →
      n = j.content.length := by
    intro h n hn
    rcases Option.or_eq_some_iff.mp hn with hn | ⟨_, hn⟩
    · exact (hreads h).size n hn
    · exact (hfaithful h).size n hn
  refine Triple.andThen (storeChunk_spec hassigned (fun hsure => htotal (j.honest_of_sure hsure))
    (fun h => ⟨hbytes h, (hreads h).goal, (hlength h).trans hgoal⟩)
    fun hsure => ⟨?_, hcontent hsure⟩) fun next => ?_
  · exact (hprogressing hsure).bounded.trans (hequipped hsure).chunk.2
  refine Triple.fact fun hnext => ?_
  have hnew : j.honest → j.Reads task ⟨reading.total.or chunk.identity.sizeBytes, next⟩ := by
    intro h
    have hsized : (expectedSize task.expectedSource).isSome →
        (reading.total.or chunk.identity.sizeBytes).isSome := by
      intro hexpected
      rw [Option.isSome_or, (hreads h).sized hexpected]
      rfl
    rw [hnext h]
    exact ⟨(hreads h).start.trans (Nat.le_add_right _ _), hlength h, htotal h, hsized, hcontent⟩
  refine Triple.pure fun past w hw => ?_
  split
  · next heof =>
    refine ⟨fun h => ⟨hnew h, ?_, fun hsure => ?_⟩, hw⟩
    · rw [hnext h, ← hoffset]
      exact (hfaithful h).eof heof
    · have := (hprogressing hsure).eof.mp heof
      have := hcontent hsure
      rw [hoffset] at *
      rw [hnext h]
      show reading.offset + chunk.bytes.length = j.content.length
      omega
  · exact ⟨hnew, hw⟩

theorem ReadAll.full {reading : TransferExecutor.Reading} (h : j.ReadAll task reading)
    (hstart : j.start.length = j.offset)
    (hsize : ∀ m, reading.total = some m → m = reading.offset) :
    j.content.length ≤ reading.offset ∧ j.goal.take reading.offset = j.goal := by
  have hlength : j.content.length ≤ reading.offset := by
    rcases h.ended with htotal | hlength
    · obtain ⟨m, hm⟩ := Option.isSome_iff_exists.mp htotal
      rw [← h.size m hm, hsize m hm]
    · exact hlength
  have := h.start
  refine ⟨hlength, List.take_of_length_le ?_⟩
  rw [goal_length hstart]
  omega

end Loop

/-- The part file is installed, and nothing that the worker still does can change
that.  A run that is sure or firm is completed. -/
structure Done (j : Attempt) (path : Path) (w : World S Outside) : Prop where
  held : j.steady → ∃ inode, w.outside.owner.files.look path = some inode ∧ j.Right inode.bytes
  task : At j.id (fun t => j.sure ∨ j.firm → t.state.kind = .completed) w.queue

theorem lasting_completed {A : TaskOp → Prop} :
    LastingFor A fun t => t.state.kind = .completed := by
  intro t op reply t' hstep _ hkind
  have hstate : ∀ {state}, t.state = state → state.kind = .completed := fun h => h ▸ hkind
  cases hstep with
  | start _ hready =>
    rcases hready with h | ⟨_, _, h, _⟩
    · cases hstate h
    · cases hstate h
  | recordProgress => exact hkind
  | requestPause _ _ h | confirmPaused _ _ h _ | resume _ _ h | confirmCancelled _ _ h _
  | complete _ _ h _ | scheduleRetry _ h _ _ | resolveConflict _ h _ => cases hstate h
  | cancelRunning _ h | fail _ _ h | enterConflict _ _ h _ =>
    rcases h with h | h
    · cases hstate h
    · cases hstate h
  | cancelIdle _ _ h => exact absurd hkind h
  | recoverAfterRestart _ h =>
    rw [TransferState.isActive, hkind] at h
    cases h

theorem lasting_done {A : TaskOp → Prop} :
    LastingFor A fun t => j.sure ∨ j.firm → t.state.kind = .completed :=
  fun _ _ _ _ hstep hop h hor => lasting_completed hstep hop (h hor)

theorem calm_done {path : Path} (hpath : path = j.bound ∨ path = j.renamed) :
    j.Calm (S := S) (j.Done path) := by
  intro w w' hdrift h
  refine ⟨fun hsteady => ?_, ?_⟩
  · rw [look_final hdrift.near hsteady hpath]
    exact h.held hsteady
  · rcases hdrift.queue with heq | ⟨c, now, _, heq⟩
    · rw [heq]
      exact h.task
    · rw [heq]
      exact Critical.preserves_exec now c lasting_done w.queue h.task

section Completion

variable {task : TransferTask} {endpoint : RemoteTransferEndpoint} {path : Path} {recorded : Nat}

structure Completable (w : World S Outside) (t : TransferTask) : Prop where
  healthy : healthy w.queue.store
  running : t.state = .running
  time : t.updatedAtUnixMs ≤ w.clock
  headroom : t.revision < u64Max
  total : ∀ n, t.progress.totalBytes = some n → t.progress.bytesTransferred = n

theorem completable {w : World S Outside} {id : TransferId} {token : RunToken}
    {verification : VerificationLevel} {identity : ObjectIdentity}
    {r : Except ExecutorError Unit} (h : j.Filing recorded w) (hid : id = j.id)
    (hlength : j.sure → j.content.length ≤ recorded)
    (hfine : j.steady → Fine (.locked (.complete id token verification identity)) w r)
    (hfirm : j.firm → Firm j.uid (.locked (.complete id token verification identity)) w r)
    (hor : j.sure ∨ j.firm) {t : TransferTask} (ht : w.queue.tasks[j.id]? = some t) :
    Completable w t := by
  subst hid
  rcases hor with hsure | hf
  · obtain ⟨hhealthy, hrevision⟩ := hfine (j.steady_of_sure hsure)
    obtain ⟨t', ht', hfollows, hstate⟩ := h.filed
    cases ht.symm.trans ht'
    refine ⟨hhealthy, (hstate hsure).1, (hstate hsure).2, hrevision t ht, fun n hn => ?_⟩
    obtain ⟨hn, hle⟩ := hfollows.total (hrevision t ht) hsure n hn
    have := hlength hsure
    rw [hfollows.bytes (hrevision t ht)]
    omega
  · obtain ⟨hhealthy, htask⟩ := hfirm hf
    obtain ⟨hrunning, htime, hrevision, htotal⟩ := htask t ht
    exact ⟨hhealthy, hrunning, htime, hrevision, htotal⟩

theorem Filing.completes {w : World S Outside} (h : j.Filing recorded w)
    (hcond : ∀ t, w.queue.tasks[j.id]? = some t → Completable w t)
    {verification : VerificationLevel} {identity : ObjectIdentity} :
    outcome (Critical.update j.id (TransferTask.complete j.token
      ⟨verification, some identity, w.clock⟩)) w.queue = .ok () := by
  obtain ⟨t, ht, hfollows, _⟩ := h.filed
  obtain ⟨hhealthy, hrunning, htime, _, htotal⟩ := hcond t ht
  have hstep : Step t (.complete j.token ⟨verification, some identity, w.clock⟩) (.change .changed)
      (t.endRun (.completed ⟨verification, some identity, w.clock⟩) w.clock) :=
    .complete (hfollows.held (by rw [hrunning]; rfl)) htime hrunning htotal
  exact update_succeeds h.synced hhealthy ht (by rfl) (complete_ok.mpr hstep)

theorem complete_spec (hassigned : j.Assigned task endpoint)
    (hpath : path = j.bound ∨ path = j.renamed) (hlength : j.sure → j.content.length ≤ recorded)
    (identity : ObjectIdentity) :
    j.around.Triple (j.Watched (S := S) True (j.Placed path recorded))
      (TransferExecutor.complete task j.token identity : ExecutorM Answers RemoteError Unit).run
      (j.Ends j.Aborting fun _ => j.Watched True (j.Done path)) := by
  refine Keeps.thenDo (B := False) (F := fun _ => True) (keeps_orPanic fun _ _ => trivial)
    (fun _ _ _ hfalse => hfalse.elim) fun endpoint' _ => ?_
  refine Triple.andThen (M := fun r : Except ExecutorError Unit =>
    either (fun _ => j.Fails j.Aborting) (fun _ => j.Watched True (j.Done path)) r) ?_
    fun r => ends_settle r
  refine Triple.perform (watched_stable (calm_placed hpath recorded)) fun past w r w' hw h => ?_
  obtain ⟨⟨hr, rfl⟩, hfine, hfirm⟩ := h
  have hplaced := hw.2.2
  have hcond : j.sure ∨ j.firm → ∀ t, w.queue.tasks[j.id]? = some t → Completable w t :=
    fun hor t ht => completable hplaced.task hassigned.id hlength hfine hfirm hor ht
  rw [hassigned.id] at hr ⊢
  match r, hr with
  | .ok u, hr =>
    refine hw.step (spares_of_eq rfl) ⟨fun hsteady => ?_, ?_⟩
    · obtain ⟨inode, hlook, hbytes, _⟩ := hplaced.held hsteady
      exact ⟨inode, hlook, hbytes⟩
    · obtain ⟨t, ht, _⟩ := hplaced.task.filed
      have hat : At j.id (fun t => j.sure ∨ j.firm → t.revision < u64Max) w.queue :=
        ⟨hplaced.task.synced, t, ht, fun hor => (hcond hor t ht).headroom⟩
      refine Critical.at_of_update_ok hat (within_of_exec (A := fun _ => True)
        (.complete j.token ⟨_, some identity, w.clock⟩) rfl trivial) hr.symm
        fun t a t' hrevision hrun => ?_
      cases complete_ok.mp hrun
      refine ⟨fun _ => rfl, fun hsame hor => absurd hsame ?_⟩
      show saturatingAddU64 t.revision 1 ≠ t.revision
      have := hrevision hor
      rw [saturatingAddU64]
      omega
  | .error e, hr =>
    have hnot : ¬ (j.sure ∨ j.firm) := by
      intro hor
      cases hr.trans (hplaced.task.completes (hcond hor))
    refine Watched.failsLate (hw.step (ψ := j.Aborting) (spares_of_eq rfl)
      ⟨hplaced.staged, hplaced.sole, ?_⟩) (not_or.mp hnot) id
    exact Critical.at_of_update_error hplaced.task.undone (within_of_exec (A := fun _ => True)
      (.complete j.token ⟨_, some identity, w.clock⟩) rfl trivial) hr.symm

end Completion

section Download

variable {support : RemoteTransferEndpoint → RemoteIoControlSupport} {limits : ExecutorLimits}
  {pace : Nat → Nat → Option Nat} {task : TransferTask} {endpoint : RemoteTransferEndpoint}
  {n : Nat} {path : Path}

theorem recordZeroProgress_spec (hassigned : j.Assigned task endpoint) {total known : Option Nat}
    {offset written : Nat} (htotal : j.sure → ∀ n, total = some n → n = j.content.length)
    (hoffset : j.sure → offset ≤ j.content.length) :
    j.around.Triple (j.Watched (S := S) False (j.Writing n path known written offset))
      (TransferExecutor.recordZeroProgress task j.token offset total :
        ExecutorM Answers RemoteError Unit).run
      (j.Ends j.Aborting fun _ => j.Watched False (j.Writing n path known written offset)) := by
  unfold TransferExecutor.recordZeroProgress
  split
  · rw [hassigned.id]
    exact record_spec htotal fun hsure => ⟨le_rfl, hoffset hsure⟩
  · exact Triple.pure fun _ _ hw => hw

theorem downloadStarted_spec (hassigned : j.Assigned task endpoint)
    (hequipped : j.sure → Equipped support limits endpoint) (hchosen : j.Chosen path)
    {session : OpenSession} {control : RemoteIoControl} {remotePath : RemotePath} :
    j.around.Triple (j.Watched (S := S) False
        (j.Writing n path (expectedSize task.expectedSource) j.offset j.offset))
      ((handleExecutor j.uid support limits pace).downloadStarted task j.token session control
        remotePath (expectedSize task.expectedSource) j.offset j.writeHandle).run
      (j.Ends j.Aborting fun _ => j.Watched True (j.Done path)) := by
  refine Keeps.thenDo (B := ¬ j.sure) (keeps_now (calm_writing _ _ _ _ _)) writing_fails
    fun started _ => ?_
  have hreads : j.honest → j.Reads task ⟨expectedSize task.expectedSource, j.offset⟩ := by
    intro h
    refine ⟨le_rfl, ?_, hassigned.size h, id, fun hsure => (j.good hsure).range⟩
    rw [goal_length hchosen.start]
    exact le_max_left _ _
  refine Triple.andThen (M := j.Loop n path (j.ReadAll task)) (Triple.conseq
    (Triple.forever (Q := j.Ends j.Aborting (j.Loop n path (j.ReadAll task)))
      (downloadRound_spec hassigned hequipped hchosen.start) _)
    (fun past w hw => ⟨hreads, hw⟩) fun r past w hr => ?_) fun reading => ?_
  · cases r <;> exact hr
  refine Triple.fact fun hall => ?_
  refine Keeps.thenDo (F := fun _ => ∀ m, reading.total = some m → m = reading.offset)
    (Keeps.settle (fun e he hsure => ?_) fun _ hok m hm => ?_) writing_fails fun _ hsize => ?_
  · have hall := hall (j.honest_of_sure hsure)
    unfold ensureFinalSize at he
    split at he
    · next hany =>
      obtain ⟨m, hm, hne⟩ := Option.any_eq_true _ _ |>.mp hany
      refine of_decide_eq_true hne ?_
      rw [hall.size m hm, hall.all hsure]
    · cases he
  · unfold ensureFinalSize at hok
    split at hok
    · cases hok
    · next hnone =>
      by_contra hne
      exact hnone (Option.any_eq_true _ _ |>.mpr ⟨m, hm, decide_eq_true hne⟩)
  have hfull := fun h => (hall h).full hchosen.start hsize
  refine Triple.andThen (recordZeroProgress_spec hassigned
    (fun hsure => (hall (j.honest_of_sure hsure)).size)
    fun hsure => (hall (j.honest_of_sure hsure)).range hsure) fun _ => ?_
  refine Keeps.thenDo (B := ¬ j.sure) (keeps_operationControl (calm_writing _ _ _ _ _) _ _)
    writing_fails fun operation _ => ?_
  refine Triple.andThen (Triple.embed (commit_spec hchosen (fun h => (hfull h).2)
    (fun hsure m hm => ?_) operation)) fun identity =>
    complete_spec hassigned hchosen.mem (fun hsure => (hfull (j.honest_of_sure hsure)).1) identity
  rw [goal_length hchosen.start, (hall (j.honest_of_sure hsure)).size m hm,
    max_eq_right (j.good hsure).range]

omit [ReliableStore S] in
theorem Fails.keep {E : Type} {R : E → Type} {env : Effects.Environment E R (World S Outside)}
    {α : Type} {p : Prog E R α} {φ ψ : World S Outside → Prop}
    (h : ∀ placed, env.Triple (j.Watched placed φ) p fun _ => j.Watched placed ψ) :
    env.Triple (j.Fails φ) p fun _ => j.Fails ψ :=
  fun _ _ ⟨hsure, placed, hfirm, hw⟩ _ _ _ hrun => ⟨hsure, placed, hfirm, h placed hw hrun⟩

theorem orElse_spec {body undo : ExecutorM Answers RemoteError Unit}
    {P : Assertion (World S Outside)} {done : Unit → Assertion (World S Outside)}
    (hbody : j.around.Triple P body.run (j.Ends j.Aborting done))
    (hundo : ∀ placed, j.around.Triple (j.Watched (S := S) placed j.Aborting) undo.run
      fun _ => j.Watched placed j.Aborting) :
    j.around.Triple P (TransferExecutor.orElse body undo).run (j.Ends j.Undone done) := by
  refine Triple.andThen (Triple.attempt hbody) fun r => ?_
  cases r with
  | ok u => exact Triple.pure fun _ _ hw => hw
  | error e =>
    refine Triple.andThen (M := fun _ => j.Fails j.Aborting)
      (Triple.attempt (Fails.keep hundo)) fun _ => ?_
    exact Triple.pure fun _ _ hw => hw.imp fun h => h.task

theorem download_spec (hassigned : j.Assigned task endpoint)
    (hequipped : j.sure → Equipped support limits endpoint) {session : OpenSession}
    {control : RemoteIoControl} :
    j.around.Triple (j.Watched (S := S) False j.Before)
      ((handleExecutor j.uid support limits pace).download task j.token session control).run
      (j.Ends j.Undone fun _ past w =>
        ∃ path, j.Chosen path ∧ j.Watched True (j.Done path) past w) := by
  have hbad : ∀ (e : RemoteError) (past : List (World S Outside × World S Outside))
      (w : World S Outside), ¬ j.sure → j.Watched False j.Before past w → j.Fails j.Undone past w :=
    fun _ _ _ hsure hw => hw.fails hsure fun h => h.task.undone
  refine Keeps.thenDo (F := (· = j.handle)) (keeps_orPanic fun handle h => ?_) hbad
    fun handle hhandle => ?_
  · exact (Option.some.inj (hassigned.handle.symm.trans h)).symm
  subst hhandle
  refine Keeps.thenDo (F := fun _ => True) (keeps_orPanic fun _ _ => trivial) hbad
    fun remote _ => ?_
  refine Keeps.thenDo (B := ¬ j.sure) (keeps_operationControl calm_before _ _) hbad
    fun operation _ => ?_
  rw [hassigned.offset, hassigned.policy, hassigned.expected]
  refine Triple.andThen (Triple.embed (begin_spec (fun hsure => hassigned.size (j.honest_of_sure hsure)) operation)) fun receipt => ?_
  refine Triple.fact fun hreceipt => Triple.forSome fun n => Triple.forSome fun path =>
    Triple.fact fun hchosen => ?_
  have hwrite : ∀ (e : RemoteError) (past : List (World S Outside × World S Outside))
      (w : World S Outside), ¬ j.sure → j.Watched False
        (j.Writing n path (expectedSize task.expectedSource) j.offset j.offset) past w →
      j.Fails j.Undone past w := fun _ _ _ hsure hw => hw.fails hsure fun h => h.task.undone
  refine Keeps.thenDo (Keeps.failIf fun hne => absurd hreceipt.2 hne) hwrite fun _ _ => ?_
  rw [hreceipt.1]
  refine Triple.conseq (orElse_spec (downloadStarted_spec hassigned hequipped hchosen)
    fun placed => ?_) (fun _ _ hw => hw) fun r past w hr => ?_
  · refine Keeps.thenDo (B := False) (keeps_newControl calm_aborting _)
      (fun _ _ _ hfalse => hfalse.elim) fun cleanup _ => ?_
    exact Triple.embed (abort_spec cleanup)
  · cases r with
    | ok u => exact ⟨path, hchosen, hr⟩
    | error e => exact hr

end Download

end Attempt

end Transfers
end LocalDesk
