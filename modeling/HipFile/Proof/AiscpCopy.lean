import HipFile.Proof.AiscpCalls
import HipFile.Proof.PublicIo

/-!
# What `aiscp` copies

* `Host.Moves`: the calls of hipFile move bytes exactly, as `hipFileRead` and `hipFileWrite` do.
* `Job.Opened`: each handle is that of its file; `opened_of_openBoth`.
* `writeRound_writes`, `readRound_reads`: a round keeps what has been copied, and adds to it.
* `main_result`: a program that succeeds has copied SOURCE, unless `ftruncate` has failed.
* `linked_copies`: and so it has with this library, whichever backends serve it.
-/

namespace HipFile.Aiscp

open Bytes

/-! ## The driver state -/

/-- The methods that register and deregister files. -/
def OnFiles : DriverState.Call → Prop
  | .registerFile .. | .deregisterFile .. => True
  | _ => False

/-- A driver state that the registration of files reaches. -/
def ReachedOnFiles (driver : DriverState) : Prop :=
  DriverState.machine.Reaches (fun _ c => OnFiles c) driver

theorem hipFileHandleRegister_reached {driver : DriverState} (h : ReachedOnFiles driver)
    (calls : FileCalls) (newFile : ℕ) (fd : ℤ) : ReachedOnFiles
      (HipFile.hipFileHandleRegister calls newFile false (some ⟨.opaqueFD, fd⟩) driver).2.2 := by
  unfold HipFile.hipFileHandleRegister
  simp only
  cases UnregisteredFile.construct calls fd with
  | error e => exact h
  | ok uf =>
    have hnext : ReachedOnFiles (DriverState.registerFile uf newFile driver).2 :=
      .step (.registerFile uf newFile) h trivial rfl
    simp only
    split <;> rename_i hregister <;> rw [hregister] at hnext <;> exact hnext

theorem openFile_reached (host : Host) (side : Side) {s : State} (h : ReachedOnFiles s.driver) :
    ReachedOnFiles (openFile host side s).2.driver := by
  unfold openFile
  split
  · exact h
  · rename_i fd _
    have hnext := hipFileHandleRegister_reached h
      (host.fileCalls (s.log (.openFd side (some fd))).calls)
      (host.newFile (s.log (.openFd side (some fd))).calls s.driver) fd
    simp only
    split <;> rename_i hregister
    · have hdriver := congrArg (fun r : Option ℕ × State => r.2.driver) hregister
      rw [← hdriver]
      exact hnext
    · have hdriver := congrArg (fun r : Option ℕ × State => r.2.driver) hregister
      show ReachedOnFiles (State.driver _)
      simp only [close, State.log]
      rw [← hdriver]
      exact hnext

/-! ## Files behind handles -/

/-- The calls of one type on a file move bytes exactly, at most `limit` of them. -/
def Host.Moves (host : Host) (type : IoType) (file : FileData) (limit : ℕ) : Prop :=
  ∀ i driver (args : IoArgs) dev, ReachedOnFiles driver → OffT args.fileOffset →
    OffT args.bufferOffset →
    let r := host.hipFileIo i driver type args file dev
    let start := args.bufferBase + args.bufferOffset.toNat
    Attempted type start args.fileOffset.toNat (min args.size limit) file dev r.file r.dev ∧
      ∀ n : ℕ, r.ret = n →
        IoExact type start args.fileOffset.toNat (min args.size limit) file dev r.file r.dev n

/-- **The files of a job**: each handle is that of its file, and SOURCE has the bytes `src`. -/
structure Job.Opened (host : Host) (src : FileData) (job : Job) (s : State) : Prop where
  srcHandle : s.inode job.src.handle = some (host.inode .src)
  dstHandle : s.inode job.dst.handle = some (host.inode .dst)
  dstFd : s.fds job.dst.fd = some (host.inode .dst)
  driver : ReachedOnFiles s.driver
  file : s.files (host.inode .src) = src

/-- No file but DEST is changed, and nothing is opened or closed. -/
structure Kept (host : Host) (s₀ s : State) : Prop where
  tables : SameTables s₀ s
  others : ∀ i, i ≠ host.inode .dst → s.files i = s₀.files i

section

variable {host : Host} {src : FileData} {limit : ℕ} {job : Job} {m k n : ℕ} {s₀ s : State}
  {x : State × ℤ} {fds : FdTable} {driver : DriverState} {i j : ℕ} {file : OpenFile}

theorem Kept.refl (host : Host) (s : State) : Kept host s s := ⟨⟨rfl, rfl⟩, fun _ _ => rfl⟩

theorem SameTables.inode {s s' : State} (h : SameTables s s') (fh : ℕ) :
    s'.inode fh = s.inode fh := by
  unfold State.inode
  rw [h.1, h.2]

theorem Job.Opened.kept (h : job.Opened host src s₀) (hne : host.inode .src ≠ host.inode .dst)
    (hkept : Kept host s₀ s) : job.Opened host src s where
  srcHandle := (hkept.tables.inode _).trans h.srcHandle
  dstHandle := (hkept.tables.inode _).trans h.dstHandle
  dstFd := by rw [hkept.tables.1, h.dstFd]
  driver := by rw [hkept.tables.2]; exact h.driver
  file := (hkept.others _ hne).trans h.file

/-- The handle of a file that is open. -/
theorem Opens.inode (h : Opens fds driver i file s) : s.inode file.handle = some i := by
  obtain ⟨f, hf, hdriver⟩ := h.registered
  unfold State.inode
  rw [hdriver, h.fds]
  simp only [Function.update_self, Option.bind_some, hf]

/-- The handles of the files below it. -/
theorem Opens.inode_below {s₁ : State} (h : Opens s₁.fds s₁.driver i file s) {fh : ℕ}
    (hfh : s₁.inode fh = some j) : s.inode fh = some j := by
  obtain ⟨f, -, hdriver⟩ := h.registered
  obtain ⟨g, hg, hfd⟩ := Option.bind_eq_some_iff.1 hfh
  -- neither its handle nor its descriptor is that of the file on top
  have hother : fh ≠ file.handle := by
    rintro rfl
    rw [h.fromFh] at hg
    cases hg
  have hotherFd : g.clientFd ≠ file.fd := by
    intro heq
    rw [heq, h.free] at hfd
    cases hfd
  unfold State.inode
  rw [hdriver, h.fds]
  simp only [Function.update_of_ne hother, hg, Option.bind_some, Function.update_of_ne hotherFd,
    hfd]

/-- What the two files are once both are open. -/
theorem opened_of_openBoth (h : OpenBoth host fds driver job.src job.dst s)
    (hdriver : ReachedOnFiles s.driver) (hsrc : s.files (host.inode .src) = src) :
    job.Opened host src s := by
  obtain ⟨s₁, hdstOpens, hsrcOpens⟩ := h
  refine ⟨hsrcOpens.inode, hsrcOpens.inode_below hdstOpens.inode, ?_, hdriver, hsrc⟩
  have hdstFd : s₁.fds job.dst.fd = some (host.inode .dst) := by
    rw [hdstOpens.fds]
    exact Function.update_self ..
  have hother : job.dst.fd ≠ job.src.fd := by
    intro heq
    rw [heq, hsrcOpens.free] at hdstFd
    cases hdstFd
  rw [hsrcOpens.fds, Function.update_of_ne hother, hdstFd]

/-- A call on a handle with a file. -/
theorem hipFileIo_of_inode {type : IoType} {args : IoArgs} (h : s.inode args.fh = some i) :
    hipFileIo host type args s =
      let r := host.hipFileIo s.calls s.driver type args (s.files i) s.dev
      (r.ret, { s with files := Function.update s.files i r.file, dev := r.dev }.log
        (.hipFileIo type args r.ret)) := by
  unfold hipFileIo
  rw [h]
  rfl

/-! ## The loops -/

/-- The first `n` bytes of SOURCE are those of DEST. -/
structure Copied (host : Host) (s₀ : State) (src : FileData) (n : ℕ) (s : State) : Prop where
  kept : Kept host s₀ s
  le : n ≤ src.eof
  moved : Agree n (s.files (host.inode .dst)).data 0 src.data 0
  within : n ≤ (s.files (host.inode .dst)).eof

/-- A chunk of `k` bytes from offset `m` is in the buffer, and `nwrite` of its bytes are in
DEST. -/
structure Writing (host : Host) (s₀ : State) (src : FileData) (job : Job) (m k : ℕ)
    (x : State × ℤ) : Prop where
  nonneg : 0 ≤ x.2
  copied : Copied host s₀ src (m + min x.2.toNat k) x.1
  chunk : Agree k x.1.dev job.devbuf src.data m
  fits : m + k ≤ src.eof

theorem offT_of_le (heof : src.eof < 2 ^ 63) (hn : n ≤ src.eof) : OffT (n : ℤ) :=
  ⟨by omega, by omega⟩

/-- **A write of the chunk**, from where the last one has ended. -/
theorem write_step (hopened : job.Opened host src s₀) (hne : host.inode .src ≠ host.inode .dst)
    (hwrite : ∀ file, host.Moves .write file limit) (heof : src.eof < 2 ^ 63)
    {w : ℕ} (size : ℕ) (h : Writing host s₀ src job m k (s, (w : ℤ))) (hw : w < k) :
    let r := hipFileWrite host ⟨job.dst.handle, job.devbuf, size, (m : ℤ) + w, w⟩ s
    Kept host s₀ r.2 ∧ ∀ n : ℕ, r.1 = n → n ≤ min size limit ∧
      Writing host s₀ src job m k (r.2, ((w + n : ℕ) : ℤ)) := by
  intro r
  obtain ⟨-, ⟨hkept, hle, hmoved, hwithin⟩, hchunk, hfits⟩ := h
  simp only [Int.toNat_natCast] at hkept hle hmoved hwithin hchunk
  have hmin : min w k = w := by omega
  rw [hmin] at hle hmoved hwithin
  have hnow := hopened.kept hne hkept
  have hcall := hwrite (s.files (host.inode .dst)) s.calls s.driver
    ⟨job.dst.handle, job.devbuf, size, (m : ℤ) + w, w⟩ s.dev hnow.driver
    (offT_of_le heof hle) (offT_of_le heof (by omega))
  have hr : r = _ := hipFileIo_of_inode hnow.dstHandle
  set out := host.hipFileIo s.calls s.driver .write
    ⟨job.dst.handle, job.devbuf, size, (m : ℤ) + w, w⟩ (s.files (host.inode .dst)) s.dev with hout
  obtain ⟨hatt, hexact⟩ := hcall
  have hoffset : ((m : ℤ) + w).toNat = m + w := by omega
  simp only [hoffset, Int.toNat_natCast] at hatt hexact
  have hdst : r.2.files (host.inode .dst) = out.file := by
    rw [hr]
    exact Function.update_self ..
  have hothers : Kept host s₀ r.2 := by
    rw [hr]
    refine ⟨hkept.tables, fun i hi => ?_⟩
    exact (Function.update_of_ne hi ..).trans (hkept.others i hi)
  refine ⟨hothers, fun n hn => ?_⟩
  have hret : out.ret = n := by
    rw [hr] at hn
    exact hn
  have hwrote := hexact n hret
  have hagree : Agree n out.file.data (m + w) s.dev (job.devbuf + w) := hwrote.moved
  obtain ⟨hdev, houtside, hgrows⟩ := hatt.write rfl
  refine ⟨hwrote.n_le, by omega, ⟨hothers, ?_, ?_, ?_⟩, ?_, hfits⟩
  · omega
  · rw [hdst]
    intro i hi
    simp only [Int.toNat_natCast] at hi
    by_cases hiw : i < m + w
    · have hkeep := houtside (0 + i) (by omega)
      exact hkeep.trans (hmoved i hiw)
    · obtain ⟨j, rfl⟩ : ∃ j, i = m + w + j := ⟨i - (m + w), by omega⟩
      have hfile := hagree j (by omega)
      have hbuf := hchunk (w + j) (by omega)
      have hpos : job.devbuf + w + j = job.devbuf + (w + j) := Nat.add_assoc _ _ _
      have hplace : m + (w + j) = m + w + j := by omega
      rw [Nat.zero_add]
      rw [hpos] at hfile
      rw [hplace] at hbuf
      exact hfile.trans hbuf
  · rw [hdst]
    simp only [Int.toNat_natCast]
    have hend : n = 0 ∨ m + w + n ≤ out.file.eof := hwrote.within
    omega
  · have hsame : r.2.dev = s.dev := by
      rw [hr]
      exact hdev
    rw [hsame]
    exact hchunk

/-- **A round of the inner loop.** -/
theorem writeRound_writes (hopened : job.Opened host src s₀)
    (hne : host.inode .src ≠ host.inode .dst) (hwrite : ∀ file, host.Moves .write file limit)
    (heof : src.eof < 2 ^ 63) (h : Writing host s₀ src job m k x) :
    (writeRound host job m k x).elim (Writing host s₀ src job m k)
      fun r => Kept host s₀ r.2 ∧ (r.1 = true → Copied host s₀ src (m + k) r.2) := by
  obtain ⟨s, nwrite⟩ := x
  obtain ⟨w, rfl⟩ := Int.eq_ofNat_of_zero_le h.nonneg
  unfold writeRound
  simp only
  split
  · rename_i hlt
    obtain ⟨hkept, hwrote⟩ := write_step hopened hne hwrite heof
      (alignUp (toSizeT ((k : ℤ) - w)) job.blockSize) h (by omega)
    split
    · exact ⟨hkept, nofun⟩
    · rename_i hneg
      obtain ⟨n, hn⟩ := Int.eq_ofNat_of_zero_le (not_lt.1 hneg)
      have hsum : (w : ℤ) + n = ((w + n : ℕ) : ℤ) := by omega
      rw [hn, hsum]
      exact (hwrote n hn).2
  · rename_i hge
    have hcopied := h.copied
    have hmin : min w k = k := by omega
    simp only [Int.toNat_natCast, hmin] at hcopied
    exact ⟨hcopied.kept, fun _ => hcopied⟩

/-- **A read of the next chunk.** -/
theorem read_step (hopened : job.Opened host src s₀) (hne : host.inode .src ≠ host.inode .dst)
    (hread : host.Moves .read src limit) (heof : src.eof < 2 ^ 63)
    (h : Copied host s₀ src m s) :
    let r := hipFileRead host ⟨job.src.handle, job.devbuf, job.bufferSize, m, 0⟩ s
    Kept host s₀ r.2 ∧ ∀ k : ℕ, r.1 = k → k ≤ min job.bufferSize limit ∧
      Writing host s₀ src job m k (r.2, 0) ∧
        (k = 0 → min job.bufferSize limit = 0 ∨ m = src.eof) := by
  intro r
  obtain ⟨hkept, hle, hmoved, hwithin⟩ := h
  have hnow := hopened.kept hne hkept
  obtain ⟨hatt, hexact⟩ := hread s.calls s.driver
    ⟨job.src.handle, job.devbuf, job.bufferSize, m, 0⟩ s.dev hnow.driver
    (offT_of_le heof hle) (offT_of_le heof (Nat.zero_le _))
  have hr : r = _ := hipFileIo_of_inode hnow.srcHandle
  rw [hnow.file] at hr
  set out := host.hipFileIo s.calls s.driver .read
    ⟨job.src.handle, job.devbuf, job.bufferSize, m, 0⟩ src s.dev with hout
  -- a read leaves the file, so that no file has changed
  obtain ⟨hsame, -⟩ := hatt.read rfl
  have hfiles : r.2.files = s.files := by
    rw [hr]
    show Function.update s.files (host.inode .src) out.file = s.files
    rw [hsame, ← hnow.file, Function.update_eq_self]
  have hkept' : Kept host s₀ r.2 := by
    refine ⟨?_, fun i hi => ?_⟩
    · rw [hr]
      exact hkept.tables
    · rw [hfiles]
      exact hkept.others i hi
  simp only [Int.toNat_natCast, Int.toNat_zero, Nat.add_zero] at hatt hexact
  refine ⟨hkept', fun k hk => ?_⟩
  have hret : out.ret = k := by
    rw [hr] at hk
    exact hk
  have hgot := hexact k hret
  have hagree : Agree k r.2.dev job.devbuf src.data m := by
    rw [hr]
    exact hgot.moved
  have hend : k = 0 ∨ m + k ≤ out.file.eof := hgot.within
  rw [hsame] at hend
  have hnothing : m + min (Int.toNat 0) k = m := by simp
  refine ⟨hgot.n_le, ⟨Int.le_refl 0, ⟨hkept', ?_, ?_, ?_⟩, hagree, by omega⟩, fun hk0 => ?_⟩
  · rw [hnothing]
    exact hle
  · rw [hnothing, hfiles]
    exact hmoved
  · rw [hnothing, hfiles]
    exact hwithin
  · have := hgot.none rfl hk0
    omega

/-- What holds between two rounds of the outer loop. -/
def Reading (host : Host) (s₀ : State) (src : FileData) (x : State × ℤ) : Prop :=
  ∃ m : ℕ, x.2 = m ∧ Copied host s₀ src m x.1

/-- What holds of a copy that has ended. -/
def Copies (host : Host) (s₀ : State) (src : FileData) (r : Option Bool × State) : Prop :=
  Kept host s₀ r.2 ∧ (r.1 = some true → Copied host s₀ src src.eof r.2)

/-- **A round of the outer loop.** -/
theorem readRound_reads (hopened : job.Opened host src s₀)
    (hne : host.inode .src ≠ host.inode .dst) (hread : host.Moves .read src limit)
    (hwrite : ∀ file, host.Moves .write file limit) (heof : src.eof < 2 ^ 63)
    (hsize : 0 < min job.bufferSize limit) (rounds : ℕ) (h : Reading host s₀ src x) :
    (readRound host job rounds x).elim (Reading host s₀ src) (Copies host s₀ src) := by
  obtain ⟨s, fileOffset⟩ := x
  obtain ⟨m, hm, hcopied⟩ := h
  obtain rfl : fileOffset = m := hm
  obtain ⟨hkept, hchunk⟩ := read_step hopened hne hread heof hcopied
  unfold readRound
  simp only
  split
  · exact ⟨hkept, nofun⟩
  · rename_i hneg
    obtain ⟨k, hk⟩ := Int.eq_ofNat_of_zero_le (not_lt.1 hneg)
    obtain ⟨-, hwriting, hnone⟩ := hchunk k hk
    have hloop := Loop.iter_elim
      (fun x hx => writeRound_writes hopened hne hwrite heof hx) rounds hwriting
    rw [hk]
    split <;> rename_i hiter <;> rw [hiter] at hloop
    · exact ⟨hloop.copied.kept, nofun⟩
    · exact ⟨hloop.1, nofun⟩
    · have hdone := hloop.2 rfl
      split
      · exact ⟨m + k, rfl, hdone⟩
      · have hk0 : k = 0 := by omega
        have hend : m = src.eof := by
          have := hnone hk0
          omega
        rw [hk0, Nat.add_zero, hend] at hdone
        exact ⟨hdone.kept, fun _ => hdone⟩

theorem copy_copies (hopened : job.Opened host src s) (hne : host.inode .src ≠ host.inode .dst)
    (hread : host.Moves .read src limit) (hwrite : ∀ file, host.Moves .write file limit)
    (heof : src.eof < 2 ^ 63) (hsize : 0 < min job.bufferSize limit) (rounds : ℕ) :
    Copies host s src (copy host job rounds s) := by
  have hstart : Reading host s src (s, 0) :=
    ⟨0, rfl, Kept.refl host s, Nat.zero_le _, agree_zero, Nat.zero_le _⟩
  have hloop := Loop.iter_elim
    (fun x hx => readRound_reads hopened hne hread hwrite heof hsize rounds hx) rounds hstart
  unfold copy
  split <;> rename_i hiter <;> rw [hiter] at hloop
  · obtain ⟨m, -, hcopied⟩ := hloop
    exact ⟨hcopied.kept, nofun⟩
  · exact hloop

/-! ## `main` -/

/-- The files are as they were, and the calls are still in the trace. -/
def Later (s s' : State) : Prop := s'.files = s.files ∧ ∀ c ∈ s.trace, c ∈ s'.trace

theorem Later.trans {s₁ s₂ s₃ : State} (h : Later s₁ s₂) (h' : Later s₂ s₃) : Later s₁ s₃ :=
  ⟨h'.1.trans h.1, fun c hc => h'.2 c (h.2 c hc)⟩

theorem closeFile_later (host : Host) (file : OpenFile) (s : State) :
    Later s (closeFile host file s).2 := by
  unfold closeFile close hipFileHandleDeregister
  split
  · exact ⟨rfl, fun c hc => by simp [State.log, hc]⟩
  · split
    · exact ⟨rfl, fun c hc => by simp [State.log, hc]⟩
    · exact ⟨rfl, fun c hc => by simp [State.log, hc]⟩

theorem closeDst_later (host : Host) (dst : OpenFile) (status : ExitStatus) (s : State) :
    Later s (closeDst host dst status s).2 := closeFile_later host dst s

theorem closeSrc_later (host : Host) (src dst : OpenFile) (status : ExitStatus) (s : State) :
    Later s (closeSrc host src dst status s).2 :=
  (closeFile_later host src s).trans (closeDst_later host dst _ _)

/-- The way out frees the buffer and closes the files, and nothing else. -/
theorem freeDevbuf_later (host : Host) (job : Job) (status : ExitStatus) (s : State) :
    Later s (freeDevbuf host job status s).2 := by
  have hfree : Later s (s.log (.hipFree job.devbuf (host.hipFree s.calls job.devbuf))) :=
    ⟨rfl, fun c hc => by simp [State.log, hc]⟩
  exact hfree.trans (closeSrc_later host job.src job.dst _ _)

/-- The way out does not make a failure a success. -/
theorem closeDst_failure (host : Host) (dst : OpenFile) (s : State) :
    (closeDst host dst .failure s).1 = .failure := by
  unfold closeDst
  simp

theorem closeSrc_failure (host : Host) (src dst : OpenFile) (s : State) :
    (closeSrc host src dst .failure s).1 = .failure := by
  unfold closeSrc
  simp only [ite_self, closeDst_failure]

theorem freeDevbuf_failure (host : Host) (job : Job) (s : State) :
    (freeDevbuf host job .failure s).1 = .failure := by
  unfold freeDevbuf
  simp only [ite_self, closeSrc_failure]

/-- A file that starts with SOURCE and is cut at its end is SOURCE. -/
theorem truncate_eq {dst : FileData} (h : Agree src.eof dst.data 0 src.data 0) :
    truncate dst src.eof = src := by
  refine FileData.ext_of ?_ rfl
  funext i
  simp only [truncate]
  split
  · rename_i hi
    have hmoved := h i hi
    simpa using hmoved
  · rename_i hi
    exact (src.hole i (not_lt.1 hi)).symm

/-- **What a program that succeeds has done to DEST**, if SOURCE is not empty: it starts with
SOURCE, and it is SOURCE unless `ftruncate` has failed. -/
def Succeeded (src dst : FileData) (trace : List Call) : Prop :=
  Agree src.eof dst.data 0 src.data 0 ∧ src.eof ≤ dst.eof ∧
    ((∀ fd, .ftruncate fd src.eof false ∉ trace) → dst = src)

theorem ftruncate_succeeded {fd : ℤ} (hfd : s₀.fds fd = some (host.inode .dst))
    (h : Copied host s₀ src src.eof s) :
    let r := ftruncate host fd src.eof s
    Succeeded src (r.2.files (host.inode .dst)) r.2.trace ∧ Kept host s₀ r.2 := by
  have hnow : s.fds fd = some (host.inode .dst) := by rw [h.kept.tables.1, hfd]
  unfold ftruncate
  rw [hnow]
  simp only
  cases hret : host.ftruncate s.calls fd src.eof with
  | true =>
    have hcut : truncate ((s.log (.ftruncate fd src.eof true)).files (host.inode .dst)) src.eof =
        src := truncate_eq h.moved
    simp only [if_true, Function.update_self, hcut]
    refine ⟨⟨?_, Nat.le_refl _, fun _ => rfl⟩, h.kept.tables, fun i hi => ?_⟩
    · exact fun i _ => rfl
    · exact (Function.update_of_ne hi ..).trans (h.kept.others i hi)
  | false =>
    refine ⟨⟨h.moved, h.within, fun hno => ?_⟩, h.kept.tables, h.kept.others⟩
    exact absurd (List.mem_append_right _ List.mem_cons_self) (hno fd)

theorem two_pow_le {align : ℕ} (halign : isPowerOfTwo align = true) (hlt : align < 2 ^ 64) :
    align ≤ 2 ^ 63 := by
  obtain ⟨k, rfl⟩ := isPowerOfTwo_iff.1 halign
  have hk : k < 64 := (Nat.pow_lt_pow_iff_right (by decide)).1 hlt
  exact Nat.pow_le_pow_right (by decide) (by omega)

/-- The buffer holds something. -/
theorem alignUp_pos {value align : ℕ} (hvalue : 0 < value) (hle : value ≤ AISCP_CHUNK_SIZE)
    (halign : isPowerOfTwo align = true) (hlt : align < 2 ^ 64) : 0 < alignUp value align := by
  have hsum : value + align ≤ 2 ^ 64 := by
    have hpow := two_pow_le halign hlt
    unfold AISCP_CHUNK_SIZE at hle
    omega
  exact hvalue.trans_le (alignUp_spec halign hsum).2.1

/-- The result of a copy of SOURCE over the files `files`. -/
def Result (host : Host) (files : ℕ → FileData) (src : FileData)
    (r : Option ExitStatus × State) : Prop :=
  (∀ i, i ≠ host.inode .dst → r.2.files i = files i) ∧
    (r.1 = some .success → Succeeded src (r.2.files (host.inode .dst)) r.2.trace)

theorem copyFile_copies {srcFile dstFile : OpenFile}
    (hopens : OpenBoth host fds driver srcFile dstFile s) (hdriver : ReachedOnFiles s.driver)
    (hsrc : s.files (host.inode .src) = src) (hne : host.inode .src ≠ host.inode .dst)
    (hread : host.Moves .read src limit) (hwrite : ∀ file, host.Moves .write file limit)
    (heof : src.eof < 2 ^ 63) (hlimit : 0 < limit) (hpos : 0 < src.eof) {blockSize : ℕ}
    (hblock : isPowerOfTwo blockSize = true) (hlt : blockSize < 2 ^ 64) (rounds : ℕ) :
    Result host s.files src (copyFile host rounds src.eof blockSize srcFile dstFile s) := by
  unfold copyFile
  simp only
  set size := alignUp (min src.eof AISCP_CHUNK_SIZE) blockSize with hsize
  have hsize0 : 0 < size :=
    alignUp_pos (lt_min hpos (by decide)) (min_le_right _ _) hblock hlt
  cases host.hipMalloc s.calls size with
  | none =>
    obtain ⟨hfiles, -⟩ :=
      closeSrc_later host srcFile dstFile .failure (s.log (.hipMalloc size none))
    refine ⟨fun i _ => congrFun hfiles i, fun hsuccess => ?_⟩
    simp only [Prod.map_fst, closeSrc_failure] at hsuccess
    cases hsuccess
  | some devbuf =>
    have hopened : Job.Opened host src ⟨srcFile, dstFile, devbuf, size, blockSize⟩
        (s.log (.hipMalloc size (some devbuf))) :=
      opened_of_openBoth (hopens.congr ⟨rfl, rfl⟩) hdriver hsrc
    have hcopy := copy_copies hopened hne hread hwrite heof (lt_min hsize0 hlimit) rounds
    simp only
    split <;> rename_i hloop <;> rw [hloop] at hcopy <;> obtain ⟨hkept, hcopied⟩ := hcopy
    · exact ⟨hkept.others, nofun⟩
    · rename_i s'
      obtain ⟨hfiles, -⟩ :=
        freeDevbuf_later host ⟨srcFile, dstFile, devbuf, size, blockSize⟩ .failure s'
      refine ⟨fun i hi => (congrFun hfiles i).trans (hkept.others i hi), fun hsuccess => ?_⟩
      simp only [Prod.map_fst, freeDevbuf_failure] at hsuccess
      cases hsuccess
    · rename_i s'
      obtain ⟨⟨hmoved, hwithin, hcut⟩, hkept⟩ :=
        ftruncate_succeeded hopened.dstFd (hcopied rfl)
      obtain ⟨hfiles, htrace⟩ := freeDevbuf_later host
        ⟨srcFile, dstFile, devbuf, size, blockSize⟩ .success
        (ftruncate host dstFile.fd src.eof s').2
      refine ⟨fun i hi => (congrFun hfiles i).trans (hkept.others i hi), fun _ => ?_⟩
      simp only [Prod.map_snd, id_eq, hfiles]
      exact ⟨hmoved, hwithin, fun hno => hcut fun fd hfd => hno fd (htrace _ hfd)⟩

end

/-- **`aiscp` copies** one file to another: over calls of hipFile that move bytes exactly, no file
but DEST is changed; a program that succeeds has copied SOURCE, whatever DEST was before, in
whatever pieces the bytes were read and written, and whatever the writes have left beyond its end;
unless `ftruncate` has failed, which is not reported by the status. An empty SOURCE leaves DEST as
it is. -/
theorem main_result {host : Host} {limit : ℕ} {files : ℕ → FileData}
    (hne : host.inode .src ≠ host.inode .dst)
    (hread : host.Moves .read (files (host.inode .src)) limit)
    (hwrite : ∀ file, host.Moves .write file limit)
    (heof : (files (host.inode .src)).eof < 2 ^ 63) (hlimit : 0 < limit)
    (hstat : ∀ statbuf ∈ host.stat, statbuf.stSize = (files (host.inode .src)).eof)
    (rounds argc : ℕ) (fds : FdTable) (dev : Mem) :
    let src := files (host.inode .src)
    let r := main host rounds argc (.start files fds dev)
    (∀ i, i ≠ host.inode .dst → r.2.files i = files i) ∧ (src.eof = 0 → r.2.files = files) ∧
      (r.1 = some .success → 0 < src.eof →
        Succeeded src (r.2.files (host.inode .dst)) r.2.trace) := by
  intro src
  unfold main
  split
  · exact ⟨fun _ _ => rfl, fun _ => rfl, nofun⟩
  simp only
  cases hstatbuf : host.stat with
  | none => exact ⟨fun _ _ => rfl, fun _ => rfl, nofun⟩
  | some statbuf =>
    have hsize : toSizeT statbuf.stSize = src.eof := by
      rw [hstat statbuf hstatbuf, toSizeT_natCast, Nat.mod_eq_of_lt]
      unfold wordModulus
      omega
    simp only [hsize]
    split
    · rename_i hblock
      set s := (State.start files fds dev).log (.stat (some statbuf).isSome) with hs
      obtain ⟨hfiles₁, hdst⟩ := openFile_opens host .dst (s := s) .init atMostOne_empty
      have hreached₁ := openFile_reached host .dst (s := s) .init
      split <;> rename_i hopen <;> rw [hopen] at hdst hfiles₁ hreached₁
      · exact ⟨fun i _ => congrFun hfiles₁ i, fun _ => hfiles₁, nofun⟩
      · rename_i dst s₁
        split
        · rename_i hzero
          have hfiles := (closeDst_later host dst .success s₁).1.trans hfiles₁
          exact ⟨fun i _ => congrFun hfiles i, fun _ => hfiles,
            fun _ hpos => absurd hzero (by omega)⟩
        · rename_i hzero
          obtain ⟨hfiles₂, hsrc⟩ := openFile_opens host .src hdst.inv (hdst.atMostOne rfl)
          have hreached₂ := openFile_reached host .src hreached₁
          have hfiles₂ := hfiles₂.trans hfiles₁
          split <;> rename_i hopen <;> rw [hopen] at hsrc hfiles₂ hreached₂
          · rename_i s₂
            have hfiles := (closeDst_later host dst .failure s₂).1.trans hfiles₂
            refine ⟨fun i _ => congrFun hfiles i, fun _ => hfiles, fun hsuccess => ?_⟩
            simp only [Prod.map_fst, closeDst_failure] at hsuccess
            cases hsuccess
          · rename_i srcFile s₂
            have hlt : toSizeT statbuf.stBlksize < 2 ^ 64 := by
              unfold toSizeT wordModulus
              omega
            rw [hdst.implicitInit] at hsrc
            obtain ⟨hothers, hdone⟩ := copyFile_copies ⟨s₁, hdst, hsrc⟩ hreached₂
              (congrFun hfiles₂ _) hne hread hwrite heof hlimit (Nat.pos_of_ne_zero hzero) hblock
              hlt rounds
            refine ⟨fun i hi => (hothers i hi).trans (congrFun hfiles₂ i),
              fun h => absurd h hzero, fun hsuccess _ => hdone hsuccess⟩
    · exact ⟨fun _ _ => rfl, fun _ => rfl, nofun⟩

/-! ## Linked to hipFile -/

/-- A library on a kernel and a runtime that do what they are documented to do. -/
structure Library.Sound (A : Allocations) (src : FileData) (lib : Library) : Prop where
  allocations : A.Sound
  answers : ∀ i, (lib.queries i).AnswersFrom A
  reads : ∀ i j count offset,
    Fallback.PreadReturns count offset src.eof ((lib.sys i).pread j count offset)
  moves : ∀ i, (lib.hip i).MovesFileBytes

variable {A : Allocations} {lib : Library} {src : FileData}

theorem OnFiles.answersFrom {c : DriverState.Call} (h : OnFiles c) : c.AnswersFrom A := by
  cases c with
  | registerBuffer => exact absurd h id
  | _ => trivial

theorem linked_moves (host : Host) (h : lib.Sound A src) (type : IoType) (file : FileData)
    (hfile : type = .read → file = src) :
    (host.linked lib).Moves type file (getMaxRwCount lib.process.pageSize) := by
  intro i driver args dev hdriver hoffset hbuffer
  have hsound : (lib.request i driver type args file dev).Sound A := by
    refine ⟨h.allocations, hdriver.mono fun _ _ hc => hc.answersFrom, h.answers i, hoffset, hbuffer,
      fun htype => ?_, h.moves i⟩
    obtain rfl := hfile htype
    exact h.reads i
  exact SyncRequest.serve_transfers hsound lib.process (lib.rounds i)

/-- **`aiscp` over hipFile copies** one file to another: whichever backends serve its calls, also
where the fast path fails half-way, and however they are cut short. -/
theorem linked_copies (host : Host) {files : ℕ → FileData}
    (h : lib.Sound A (files (host.inode .src))) (hne : host.inode .src ≠ host.inode .dst)
    (heof : (files (host.inode .src)).eof < 2 ^ 63)
    (hpage : 0 < getMaxRwCount lib.process.pageSize)
    (hstat : ∀ statbuf ∈ host.stat, statbuf.stSize = (files (host.inode .src)).eof)
    (rounds argc : ℕ) (fds : FdTable) (dev : Mem) :
    let src := files (host.inode .src)
    let r := main (host.linked lib) rounds argc (.start files fds dev)
    (∀ i, i ≠ host.inode .dst → r.2.files i = files i) ∧ (src.eof = 0 → r.2.files = files) ∧
      (r.1 = some .success → 0 < src.eof →
        Succeeded src (r.2.files (host.inode .dst)) r.2.trace) := by
  have hread := linked_moves host h .read (files (host.inode .src)) fun _ => rfl
  have hwrite : ∀ file, (host.linked lib).Moves .write file _ :=
    fun file => linked_moves host h .write file nofun
  exact @main_result (host.linked lib) _ files hne hread hwrite heof hpage hstat rounds argc fds dev

/-! ### An example -/

open Fallback (shortCounts tenBytes)
open SyncRequest (brokenReads brokenReads_moves oneRange oneRange_sound preadReturns_shortCounts)

/-- The library on a runtime that cannot read, and a kernel that cuts reads and interrupts. -/
def brokenLibrary : Library where
  process := ⟨4096, ⟨true, true, 1, false⟩⟩
  queries _ := oneAllocation
  sys _ := shortCounts
  hip _ := brokenReads
  hipInited _ := false
  rounds _ := 9

theorem brokenLibrary_sound : brokenLibrary.Sound oneRange tenBytes.file where
  allocations := oneRange_sound
  answers _ _ _ h := h
  reads _ := preadReturns_shortCounts
  moves _ := brokenReads_moves

/-- The address of a new `File`. -/
def firstFree (files : FileMap) : ℕ := if (files.fromFh 7).isNone then 7 else 8

theorem firstFree_free {files : FileMap} (h : AtMostOne files) :
    firstFree files ≠ 0 ∧ files.fromFh (firstFree files) = none := by
  obtain ⟨fh, hothers⟩ := h
  unfold firstFree
  by_cases hfree : (files.fromFh 7).isNone
  · rw [if_pos hfree]
    exact ⟨by decide, Option.isNone_iff_eq_none.1 hfree⟩
  · rw [if_neg hfree]
    refine ⟨by decide, hothers 8 ?_⟩
    rintro rfl
    exact hfree (Option.isNone_iff_eq_none.2 (hothers 7 (by decide)))

/-- The descriptor that `open` returns. -/
def firstClosed (fds : FdTable) : Option ℤ :=
  if (fds 3).isNone then some 3 else if (fds 4).isNone then some 4 else none

theorem firstClosed_free {fds : FdTable} {fd : ℤ} (h : firstClosed fds = some fd) :
    fds fd = none := by
  unfold firstClosed at h
  split at h
  · rename_i hfree
    obtain rfl := Option.some.inj h
    exact Option.isNone_iff_eq_none.1 hfree
  · split at h
    · rename_i hfree
      obtain rfl := Option.some.inj h
      exact Option.isNone_iff_eq_none.1 hfree
    · cases h

/-- Two regular files, on ext4 with blocks of four bytes. -/
def smallBlocks : Host where
  stat := some ⟨10, 4⟩
  inode side := if side = .src then 1 else 2
  openFd _ _ := firstClosed
  openFd_free := firstClosed_free
  fileCalls _ := ⟨.ok ⟨STATX_TYPE ||| STATX_DIOALIGN, S_IFREG, 4, 4⟩, .ok O_DIRECT,
    .ok (some (.ext4 .ordered)), fun _ => .ok 6⟩
  newFile _ driver := firstFree driver.fileMap
  newFile_free _ _ := firstFree_free
  close _ _ := true
  hipMalloc _ _ := some 0x10000
  hipFree _ _ := true
  hipFileIo _ _ _ _ file dev := ⟨0, file, dev⟩
  ftruncate _ _ _ := true

/-- Ten bytes, and twenty. -/
def tenOverTwenty (inode : ℕ) : FileData :=
  if inode = 1 then tenBytes.file
  else ⟨fun i => if i < 20 then 7 else 0, 20, fun _ hi => if_neg (by omega)⟩

/-- The first read goes to the fallback, and the write of its ten bytes is of twelve. -/
theorem linked_copies_sample :
    let r := main (smallBlocks.linked brokenLibrary) 9 3
      (.start tenOverTwenty (fun _ => none) fun _ => 0)
    r.2.files 1 = tenBytes.file ∧ Succeeded tenBytes.file (r.2.files 2) r.2.trace := by
  have hsuccess : (main (smallBlocks.linked brokenLibrary) 9 3
      (.start tenOverTwenty (fun _ => none) fun _ => 0)).1 = some .success := by decide +kernel
  obtain ⟨hothers, -, hcopied⟩ := @linked_copies oneRange brokenLibrary smallBlocks
    tenOverTwenty brokenLibrary_sound (by decide) (by decide) (by decide)
    (fun statbuf h => by obtain rfl := Option.some.inj h; rfl) 9 3 (fun _ => none) fun _ => 0
  exact ⟨hothers 1 (by decide), hcopied hsuccess (by decide)⟩

end HipFile.Aiscp
