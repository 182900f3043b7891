import Mathlib.Data.Nat.Bitwise
import HipFile.Model.Aiscp
import HipFile.Proof.Registration

/-!
# The calls that `aiscp` makes

* `alignUp_spec`: `align_up` gives the next multiple of a power of two.
* `Opens`: a file is open and registered; `openFile_opens`, `closeFile_closes`.
* `main_ends`: whatever fails, the program uses only what it holds, releases all of it in the
  reverse order, and succeeds exactly if no call but `ftruncate` has failed.
-/

namespace HipFile.Aiscp

open Effect

/-! ## Rounding up -/

theorem isPowerOfTwo_iff {value : ℕ} : isPowerOfTwo value = true ↔ ∃ k, value = 2 ^ k := by
  have h := @Nat.ne_zero_and_sub_one_eq_zero_iff_isPowerOfTwo value
  unfold Nat.isPowerOfTwo at h
  unfold isPowerOfTwo
  rw [decide_eq_true_iff, Nat.pos_iff_ne_zero, h]

/-- A value without its last `k` bits. -/
theorem and_mask {x k : ℕ} (hx : x < 2 ^ 64) (hk : k ≤ 64) :
    x &&& (2 ^ 64 - (2 ^ k - 1 + 1)) = x / 2 ^ k * 2 ^ k := by
  have hmask : 2 ^ k - 1 < 2 ^ 64 := by
    have hpos := Nat.two_pow_pos k
    have hle : 2 ^ k ≤ 2 ^ 64 := Nat.pow_le_pow_right (by decide) hk
    omega
  refine Nat.eq_of_testBit_eq fun i => ?_
  rw [Nat.testBit_and, Nat.testBit_two_pow_sub_succ hmask, Nat.testBit_two_pow_sub_one,
    Nat.testBit_mul_two_pow, Nat.testBit_div_two_pow]
  by_cases hi : k ≤ i
  · have hsub : i - k + k = i := by omega
    have hlt : ¬ i < k := by omega
    by_cases h64 : i < 64
    · simp [hi, hlt, h64, hsub]
    · have hzero : x.testBit i = false :=
        Nat.testBit_lt_two_pow (hx.trans_le (Nat.pow_le_pow_right (by decide) (by omega)))
      simp [hi, hsub, hzero]
  · have hlt : i < k := by omega
    simp [hi, hlt]

/-- **`align_up` gives the next multiple**, for a power of two and a sum that does not wrap. -/
theorem alignUp_spec {value align : ℕ} (halign : isPowerOfTwo align = true)
    (hsum : value + align ≤ 2 ^ 64) :
    align ∣ alignUp value align ∧ value ≤ alignUp value align ∧
      ∀ m, align ∣ m → value ≤ m → alignUp value align ≤ m := by
  obtain ⟨k, rfl⟩ := isPowerOfTwo_iff.1 halign
  have hpos := Nat.two_pow_pos k
  have hk : k ≤ 64 := (Nat.pow_le_pow_iff_right (by decide)).1 (by omega : 2 ^ k ≤ 2 ^ 64)
  have hx : value + 2 ^ k - 1 < 2 ^ 64 := by omega
  have hmask : 2 ^ 64 - 1 - (2 ^ k - 1) = 2 ^ 64 - (2 ^ k - 1 + 1) := by omega
  have heq : alignUp value (2 ^ k) = (value + 2 ^ k - 1) / 2 ^ k * 2 ^ k := by
    unfold alignUp wordModulus
    rw [Nat.mod_eq_of_lt hx, hmask, and_mask hx hk]
  have hdiv := Nat.div_add_mod (value + 2 ^ k - 1) (2 ^ k)
  have hmod := Nat.mod_lt (value + 2 ^ k - 1) hpos
  rw [Nat.mul_comm] at hdiv
  rw [heq]
  refine ⟨Nat.dvd_mul_left _ _, by omega, ?_⟩
  rintro _ ⟨c, rfl⟩ hc
  rw [Nat.mul_comm (2 ^ k)]
  refine Nat.mul_le_mul_right _ (Nat.lt_succ_iff.1 ((Nat.div_lt_iff_lt_mul hpos).2 ?_))
  rw [Nat.succ_mul, Nat.mul_comm c]
  omega

/-! ## Opening and closing -/

/-- An entry that is made and taken back. -/
theorem update_back {α β : Type} [DecidableEq α] {f : α → β} {a : α} {b c : β} (h : f a = c) :
    Function.update (Function.update f a b) a c = f := by
  rw [Function.update_idem, ← h, Function.update_eq_self]

/-- **A file is open and registered**, on top of the descriptors and the driver state that are
given, which do not have it. -/
structure Opens (fds : FdTable) (driver : DriverState) (inode : ℕ) (file : OpenFile) (s : State) :
    Prop where
  free : fds file.fd = none
  fds : s.fds = Function.update fds file.fd (some inode)
  init : 0 < driver.refCount
  notNull : file.handle ≠ 0
  fromFd : driver.fileMap.fromFd file.fd = none
  fromFh : driver.fileMap.fromFh file.handle = none
  registered : ∃ f : IFile, f.clientFd = file.fd ∧ s.driver = { driver with
    fileMap := ⟨Function.update driver.fileMap.fromFd file.fd (some f),
      Function.update driver.fileMap.fromFh file.handle (some f)⟩ }

theorem construct_clientFd {calls : FileCalls} {fd : ℤ} {uf : UnregisteredFile}
    (h : UnregisteredFile.construct calls fd = .ok uf) : uf.clientFd.fd = fd := by
  unfold UnregisteredFile.construct at h
  split at h
  · cases h
  split at h
  · cases h
  split at h
  · cases h
  simp only at h
  split at h
  · split at h
    · cases h
    · obtain rfl := Except.ok.inj h
      rfl
  · split at h
    · split at h
      · cases h
      · obtain rfl := Except.ok.inj h
        rfl
    · obtain rfl := Except.ok.inj h
      rfl

theorem registerFile_apply (uf : UnregisteredFile) (handle : ℕ) (driver : DriverState) :
    DriverState.registerFile uf handle driver =
      if (driver.implicitInit.fileMap.fromFd uf.clientFd.fd).isSome then
        (.error .fileAlreadyRegistered, driver.implicitInit)
      else (.ok handle, { driver.implicitInit with
        fileMap := ⟨Function.update driver.implicitInit.fileMap.fromFd uf.clientFd.fd
            (some (File.construct handle uf)),
          Function.update driver.implicitInit.fileMap.fromFh handle
            (some (File.construct handle uf))⟩ }) := by
  simp only [DriverState.registerFile, Prog.bind_apply, Prog.update_apply, DriverState.onFileMap,
    Prog.zoom, FileMap.registerFile]
  split <;> rfl

/-- **What a registration does**: a new entry for the descriptor, or nothing. -/
theorem hipFileHandleRegister_cases (host : Host) (fd : ℤ) {s : State} (hI : s.driver.Inv)
    (hone : AtMostOne s.driver.fileMap) :
    ∃ fh driver, hipFileHandleRegister host fd s =
        (fh, { s with driver := driver }.log (.hipFileHandleRegister fd fh)) ∧
      (fh = none ∧ driver = s.driver ∨
        ∃ handle f, fh = some handle ∧ handle ≠ 0 ∧ f.clientFd = fd ∧
          s.driver.implicitInit.fileMap.fromFd fd = none ∧
          s.driver.implicitInit.fileMap.fromFh handle = none ∧
          driver = { s.driver.implicitInit with
            fileMap := ⟨Function.update s.driver.implicitInit.fileMap.fromFd fd (some f),
              Function.update s.driver.implicitInit.fileMap.fromFh handle (some f)⟩ }) := by
  obtain ⟨hnotNull, hnew⟩ := host.newFile_free s.calls s.driver hone
  refine ⟨_, _, rfl, ?_⟩
  by_cases herr : (HipFile.hipFileHandleRegister (host.fileCalls s.calls)
      (host.newFile s.calls s.driver) false (some ⟨.opaqueFD, fd⟩) s.driver).1.err = .success
  · right
    simp only [if_pos herr]
    unfold HipFile.hipFileHandleRegister at herr ⊢
    simp only at herr ⊢
    cases hconstruct : UnregisteredFile.construct (host.fileCalls s.calls) fd with
    | error e =>
      simp only [hconstruct] at herr
      exact absurd herr (handleRegisterCatch_ne_success e)
    | ok uf =>
      obtain rfl := construct_clientFd hconstruct
      have hmaps := (DriverState.implicitInit_maps s.driver).1
      by_cases hregistered : (s.driver.implicitInit.fileMap.fromFd uf.clientFd.fd).isSome
      · simp only [hconstruct, registerFile_apply, if_pos hregistered] at herr
        exact absurd herr (handleRegisterCatch_ne_success _)
      · simp only [registerFile_apply, if_neg hregistered]
        refine ⟨_, _, rfl, hnotNull, rfl, by simpa using hregistered, ?_, rfl⟩
        rw [hmaps]
        exact hnew
  · left
    simp only [if_neg herr]
    exact ⟨trivial, hipFileHandleRegister_failed hI herr⟩

theorem atMostOne_empty : AtMostOne .empty := ⟨0, fun _ _ => rfl⟩

/-- **`open_file`** opens and registers a file, or leaves nothing open. -/
theorem openFile_opens (host : Host) (side : Side) {s : State} (hI : s.driver.Inv)
    (hone : AtMostOne s.driver.fileMap) :
    (openFile host side s).2.files = s.files ∧
      match openFile host side s with
      | (some file, s') => Opens s.fds s.driver.implicitInit (host.inode side) file s'
      | (none, s') => s'.fds = s.fds ∧ s'.driver = s.driver := by
  unfold openFile
  cases hopen : host.openFd s.calls side s.fds with
  | none => exact ⟨rfl, rfl, rfl⟩
  | some fd =>
    have hfree : s.fds fd = none := host.openFd_free hopen
    obtain ⟨fh, driver, hregister, hcases⟩ := hipFileHandleRegister_cases host fd
      (s := { s with fds := Function.update s.fds fd (some (host.inode side)) }.log
        (.openFd side (some fd))) hI hone
    simp only [hregister]
    obtain ⟨rfl, rfl⟩ | ⟨handle, f, rfl, hnotNull, hfd, hfromFd, hfromFh, rfl⟩ := hcases
    · exact ⟨rfl, update_back hfree, rfl⟩
    · exact ⟨rfl, hfree, rfl, DriverState.implicitInit_pos hI, hnotNull, hfromFd, hfromFh, f, hfd,
        rfl⟩

variable {host : Host} {s s' : State} {fds : FdTable} {driver : DriverState} {inode : ℕ}
  {file : OpenFile}

/-- The driver is initialised then. -/
theorem Opens.pos (h : Opens fds driver inode file s) : 0 < s.driver.refCount := by
  obtain ⟨f, -, hdriver⟩ := h.registered
  rw [hdriver]
  exact h.init

/-- **`close_file`** of such a file deregisters and closes it, whether `close` reports an error or
not. -/
theorem closeFile_closes (h : Opens fds driver inode file s) :
    (closeFile host file s).2 = { s with
      fds := fds
      driver := driver
      trace := s.trace ++ [.hipFileHandleDeregister file.handle true] ++
        [.close file.fd (closeFile host file s).1] } := by
  obtain ⟨f, hf, hdriver⟩ := h.registered
  have hinit : s.driver.refCount ≠ 0 := Int.ne_of_gt h.pos
  have hfile : s.driver.fileMap.fromFh file.handle = some f := by
    rw [hdriver]
    exact Function.update_self ..
  have hderegister : DriverState.deregisterFile file.handle 2 s.driver = (.ok (), driver) := by
    unfold DriverState.deregisterFile
    rw [DriverState.requireInit_bind, if_neg hinit]
    simp only [DriverState.onFileMap, Prog.zoom, FileMap.deregisterFile, hfile, hf]
    rw [hdriver]
    simp only [update_back h.fromFd, update_back h.fromFh, lt_irrefl, if_false]
  have hclosed : Function.update s.fds file.fd none = fds := by
    rw [h.fds]
    exact update_back h.free
  have hdone : hipFileHandleDeregister file.handle s =
      { s with driver := driver }.log (.hipFileHandleDeregister file.handle true) := by
    unfold hipFileHandleDeregister
    rw [if_neg h.notNull, hderegister]
  unfold closeFile close
  rw [hdone]
  simp only [State.log, hclosed]

/-- With one file on top of none, one is registered. -/
theorem Opens.atMostOne (h : Opens fds driver inode file s) (hempty : driver.fileMap = .empty) :
    AtMostOne s.driver.fileMap := by
  obtain ⟨f, -, hdriver⟩ := h.registered
  refine ⟨file.handle, fun fh hfh => ?_⟩
  rw [hdriver, hempty]
  exact Function.update_of_ne hfh ..

/-- One descriptor more is open. -/
theorem Opens.others (h : Opens fds driver inode file s) :
    ∃ fd, ∀ fd' ≠ fd, s.fds fd' = fds fd' := by
  refine ⟨file.fd, fun fd hfd => ?_⟩
  rw [h.fds]
  exact Function.update_of_ne hfd ..

theorem Opens.inv (h : Opens fds driver inode file s) : s.driver.Inv := .of_pos h.pos

theorem Opens.implicitInit (h : Opens fds driver inode file s) :
    s.driver.implicitInit = s.driver := DriverState.implicitInit_of_pos h.pos

/-! ## Resources -/

inductive Resource
  | fd (fd : ℤ)
  | handle (fh : ℕ)
  | devbuf (p : ℕ)
  deriving DecidableEq, Repr

/-- What a call acquires, gives up or uses. -/
def Call.effect : Call → Effect Resource
  | .openFd _ (some fd) => .acquire (.fd fd) []
  | .hipFileHandleRegister fd (some fh) => .acquire (.handle fh) [.fd fd]
  | .hipFileHandleRegister fd none => .use [.fd fd]
  | .hipFileHandleDeregister fh true => .release (.handle fh)
  | .hipFileHandleDeregister fh false => .lose (.handle fh)
  | .close fd _ => .release (.fd fd)
  | .hipMalloc _ (some p) => .acquire (.devbuf p) []
  | .hipFree p true => .release (.devbuf p)
  | .hipFree p false => .lose (.devbuf p)
  | .hipFileIo _ args _ => .use [.handle args.fh, .devbuf args.bufferBase]
  | .ftruncate fd _ _ => .use [.fd fd]
  | .stat _ | .openFd _ none | .hipMalloc _ none => .use []

/-- A call that the program cannot do without has failed. -/
def Call.Failed : Call → Prop
  | .stat ret | .close _ ret | .hipFree _ ret => ret = false
  | .openFd _ ret => ret = none
  | .hipFileHandleRegister _ ret | .hipMalloc _ ret => ret = none
  | .hipFileIo _ _ ret => ret < 0
  | .hipFileHandleDeregister .. | .ftruncate .. => False

/-- After the calls made, `st` is held, and nothing is lost but device memory that `hipFree` did
not take back; and whether a call has failed. -/
structure Holds (s : State) (st : List Resource) (clean : Prop) : Prop where
  held : ∃ lost, held ⟨[], []⟩ (s.trace.map Call.effect) = some ⟨st, lost⟩ ∧
    ∀ r ∈ lost, ∃ p, r = .devbuf p ∧ .hipFree p false ∈ s.trace
  clean : clean ↔ ∀ c ∈ s.trace, ¬ c.Failed

variable {st st' : List Resource} {clean : Prop} {job : Job} {rounds : ℕ}

/-- **One more call**, which loses nothing but device memory. -/
theorem Holds.call (h : Holds s st clean) {c : Call} (htrace : s'.trace = s.trace ++ [c])
    (hc : ∀ lost, c.effect.apply ⟨st, lost⟩ = some ⟨st', lost⟩ ∨
      ∃ p, c = .hipFree p false ∧ c.effect.apply ⟨st, lost⟩ = some ⟨st', .devbuf p :: lost⟩) :
    Holds s' st' (clean ∧ ¬ c.Failed) := by
  constructor
  · obtain ⟨lost, hheld, hlost⟩ := h.held
    rw [htrace, List.map_append, List.map_singleton, held_concat hheld]
    have hbefore : ∀ r ∈ lost, ∃ p, r = .devbuf p ∧ .hipFree p false ∈ s.trace ++ [c] := by
      intro r hr
      obtain ⟨p, hp, hmem⟩ := hlost r hr
      exact ⟨p, hp, List.mem_append_left _ hmem⟩
    obtain hkeeps | ⟨p, rfl, hloses⟩ := hc lost
    · exact ⟨lost, hkeeps, hbefore⟩
    · refine ⟨_, hloses, fun r hr => ?_⟩
      obtain rfl | hr := List.mem_cons.1 hr
      · exact ⟨p, rfl, List.mem_append_right _ List.mem_cons_self⟩
      · exact hbefore r hr
  · rw [h.clean, htrace]
    simp only [List.mem_append, List.mem_singleton, or_imp, forall_and, forall_eq]

theorem Holds.log (h : Holds s st clean) {c : Call}
    (hc : ∀ lost, c.effect.apply ⟨st, lost⟩ = some ⟨st', lost⟩) :
    Holds (s.log c) st' (clean ∧ ¬ c.Failed) :=
  h.call rfl fun lost => Or.inl (hc lost)

theorem Holds.congr (h : Holds s st clean) {clean' : Prop} (hc : clean ↔ clean')
    (htrace : s'.trace = s.trace) : Holds s' st clean' := by
  constructor
  · rw [htrace]
    exact h.held
  · rw [htrace, ← hc]
    exact h.clean

/-- What `open_file` acquires, and that it releases what it has acquired where it fails. -/
theorem openFile_holds (host : Host) (side : Side) (hI : s.driver.Inv)
    (hone : AtMostOne s.driver.fileMap) (h : Holds s st clean) :
    match openFile host side s with
    | (some file, s') => Holds s' (.handle file.handle :: .fd file.fd :: st) clean
    | (none, s') => Holds s' st False := by
  unfold openFile
  cases hopen : host.openFd s.calls side s.fds with
  | none =>
    have hlog := h.log (c := .openFd side none) fun _ => apply_use (List.nil_subset _)
    exact hlog.congr (by simp [Call.Failed]) rfl
  | some fd =>
    have hlog := h.log (c := .openFd side (some fd)) fun _ => apply_acquire (List.nil_subset _)
    have hfd : [Resource.fd fd] ⊆ .fd fd :: st := by simp
    obtain ⟨fh, driver, hregister, -⟩ := hipFileHandleRegister_cases host fd
      (s := { s with fds := Function.update s.fds fd (some (host.inode side)) }.log
        (.openFd side (some fd))) hI hone
    simp only [hregister]
    cases fh with
    | some fh =>
      have hreg := hlog.log (c := .hipFileHandleRegister fd (some fh)) fun _ => apply_acquire hfd
      exact hreg.congr (by simp [Call.Failed]) rfl
    | none =>
      have hreg := hlog.log (c := .hipFileHandleRegister fd none) fun _ => apply_use hfd
      refine (hreg.log (c := .close fd _) fun _ => apply_release).congr ?_ rfl
      simp [Call.Failed]

theorem closeFile_holds (host : Host) (hopens : Opens fds driver inode file s)
    (h : Holds s (.handle file.handle :: .fd file.fd :: st) clean) :
    Holds (closeFile host file s).2 st (clean ∧ (closeFile host file s).1 = true) := by
  have hdereg := h.log (c := .hipFileHandleDeregister file.handle true) fun _ => apply_release
  have hclose := hdereg.log (c := .close file.fd (closeFile host file s).1) fun _ => apply_release
  refine hclose.congr (by simp [Call.Failed]) ?_
  rw [closeFile_closes hopens]
  rfl

/-! ## The copy loop -/

/-- The descriptors and the driver state are as they were. -/
def SameTables (s s' : State) : Prop := s'.fds = s.fds ∧ s'.driver = s.driver

theorem SameTables.trans {s₁ s₂ s₃ : State} (h : SameTables s₁ s₂) (h' : SameTables s₂ s₃) :
    SameTables s₁ s₃ := ⟨h'.1.trans h.1, h'.2.trans h.2⟩

theorem Opens.congr (h : Opens fds driver inode file s) (hsame : SameTables s s') :
    Opens fds driver inode file s' := by
  obtain ⟨f, hf, hdriver⟩ := h.registered
  exact ⟨h.free, hsame.1.trans h.fds, h.init, h.notNull, h.fromFd, h.fromFh, f, hf,
    hsame.2.trans hdriver⟩

theorem ftruncate_tables (host : Host) (fd : ℤ) (size : ℕ) (s : State) :
    SameTables s (ftruncate host fd size s).2 := by
  unfold ftruncate
  split
  · exact ⟨rfl, rfl⟩
  · simp only
    split <;> exact ⟨rfl, rfl⟩

/-- What is held in the copy loop. -/
def Job.resources (job : Job) : List Resource :=
  [.devbuf job.devbuf, .handle job.src.handle, .fd job.src.fd, .handle job.dst.handle,
    .fd job.dst.fd]

theorem hipFileIo_holds (host : Host) (type : IoType) {args : IoArgs}
    (hargs : [Resource.handle args.fh, .devbuf args.bufferBase] ⊆ job.resources)
    (h : Holds s job.resources clean) :
    let r := hipFileIo host type args s
    Holds r.2 job.resources (clean ∧ 0 ≤ r.1) := by
  intro r
  have hlog := h.log (c := .hipFileIo type args r.1) fun _ => apply_use hargs
  exact hlog.congr (by simp [Call.Failed]) rfl

theorem hipFileRead_holds (host : Host) (size : ℕ) (fileOffset bufferOffset : ℤ)
    (h : Holds s job.resources clean) :
    let r := hipFileRead host ⟨job.src.handle, job.devbuf, size, fileOffset, bufferOffset⟩ s
    Holds r.2 job.resources (clean ∧ 0 ≤ r.1) :=
  hipFileIo_holds host .read (by simp [Job.resources]) h

theorem hipFileWrite_holds (host : Host) (size : ℕ) (fileOffset bufferOffset : ℤ)
    (h : Holds s job.resources clean) :
    let r := hipFileWrite host ⟨job.dst.handle, job.devbuf, size, fileOffset, bufferOffset⟩ s
    Holds r.2 job.resources (clean ∧ 0 ≤ r.1) :=
  hipFileIo_holds host .write (by simp [Job.resources]) h

/-- **The inner loop.** -/
theorem writeRounds_hold (host : Host) (rounds : ℕ) (fileOffset nread nwrite : ℤ)
    (h : Holds s job.resources True) :
    (Loop.iter (writeRound host job fileOffset nread) rounds (s, nwrite)).elim
      (fun x => Holds x.1 job.resources True ∧ SameTables s x.1)
      fun r => Holds r.2 job.resources (r.1 = true) ∧ SameTables s r.2 := by
  refine Loop.iter_elim ?_ rounds ⟨h, rfl, rfl⟩
  rintro ⟨s', nwrite⟩ ⟨hs, hsame⟩
  have hwrite := hipFileWrite_holds host
    (alignUp (toSizeT (nread - nwrite)) job.blockSize) (fileOffset + nwrite) nwrite hs
  unfold writeRound
  simp only
  split
  · split
    · rename_i hneg
      exact ⟨hwrite.congr (by simp [hneg]) rfl, hsame⟩
    · rename_i hneg
      exact ⟨hwrite.congr (by simp [not_lt.1 hneg]) rfl, hsame⟩
  · exact ⟨hs.congr (by simp) rfl, hsame⟩

/-- **The outer loop.** -/
theorem copy_holds (host : Host) (rounds : ℕ) (h : Holds s job.resources True) :
    Holds (copy host job rounds s).2 job.resources ((copy host job rounds s).1 ≠ some false) ∧
      SameTables s (copy host job rounds s).2 := by
  have hiter : (Loop.iter (readRound host job rounds) rounds (s, 0)).elim
      (fun x => Holds x.1 job.resources True ∧ SameTables s x.1)
      fun r => Holds r.2 job.resources (r.1 ≠ some false) ∧ SameTables s r.2 := by
    refine Loop.iter_elim ?_ rounds ⟨h, rfl, rfl⟩
    rintro ⟨s', fileOffset⟩ ⟨hs, hsame⟩
    have hread := hipFileRead_holds host job.bufferSize fileOffset 0 hs
    unfold readRound
    simp only
    split
    · rename_i hneg
      exact ⟨hread.congr (by simp [hneg]) rfl, hsame⟩
    · rename_i hneg
      have hwrites := writeRounds_hold host rounds fileOffset
        (hipFileRead host ⟨job.src.handle, job.devbuf, job.bufferSize, fileOffset, 0⟩ s').1 0
        (hread.congr (by simp [not_lt.1 hneg]) rfl)
      split <;> rename_i hloop <;> rw [hloop] at hwrites
      · exact ⟨hwrites.1.congr (by simp) rfl, hsame.trans hwrites.2⟩
      · exact ⟨hwrites.1.congr (by simp) rfl, hsame.trans hwrites.2⟩
      · split
        · exact ⟨hwrites.1.congr (by simp) rfl, hsame.trans hwrites.2⟩
        · exact ⟨hwrites.1.congr (by simp) rfl, hsame.trans hwrites.2⟩
  unfold copy
  split <;> rename_i hloop <;> rw [hloop] at hiter
  · exact ⟨hiter.1.congr (by simp) rfl, hiter.2⟩
  · exact hiter

theorem ftruncate_holds (size : ℕ) (h : Holds s job.resources clean) :
    Holds (ftruncate host job.dst.fd size s).2 job.resources clean := by
  have hlog (ret : Bool) : Holds (s.log (.ftruncate job.dst.fd size ret)) job.resources clean := by
    have hcall := h.log (c := .ftruncate job.dst.fd size ret)
      fun _ => apply_use (by simp [Job.resources])
    exact hcall.congr (by simp [Call.Failed]) rfl
  unfold ftruncate
  split
  · exact hlog false
  · refine (hlog (host.ftruncate s.calls job.dst.fd size)).congr Iff.rfl ?_
    simp only
    split <;> rfl

/-! ## The ways out of `main` -/

/-- A status that a failure replaces. -/
theorem ite_success {b : Bool} {status : ExitStatus} :
    (if b then status else .failure) = ExitStatus.success ↔ status = .success ∧ b = true := by
  cases b <;> simp

/-- The program has ended: nothing is held, and the descriptors and the driver state are the ones
that are given. -/
structure Over (fds : FdTable) (driver : DriverState) (r : ExitStatus × State) : Prop where
  holds : Holds r.2 [] (r.1 = .success)
  fds : r.2.fds = fds
  driver : r.2.driver = driver

/-- SOURCE is open on top of DEST. -/
def OpenBoth (host : Host) (fds : FdTable) (driver : DriverState) (src dst : OpenFile)
    (s : State) : Prop :=
  ∃ s₁ : State, Opens fds driver (host.inode .dst) dst s₁ ∧
    Opens s₁.fds s₁.driver (host.inode .src) src s

theorem OpenBoth.congr {src dst : OpenFile} (h : OpenBoth host fds driver src dst s)
    (hsame : SameTables s s') : OpenBoth host fds driver src dst s' := by
  obtain ⟨s₁, hdst, hsrc⟩ := h
  exact ⟨s₁, hdst, hsrc.congr hsame⟩

/-- What is left open when the file on top is closed. -/
theorem closeFile_tables (host : Host) {s₁ : State} (h : Opens s₁.fds s₁.driver inode file s) :
    SameTables s₁ (closeFile host file s).2 := by
  rw [closeFile_closes h]
  exact ⟨rfl, rfl⟩

theorem closeDst_over {dst : OpenFile} {status : ExitStatus}
    (hopens : Opens fds driver inode dst s)
    (h : Holds s [.handle dst.handle, .fd dst.fd] (status = .success)) :
    Over fds driver (closeDst host dst status s) := by
  have hclose := closeFile_holds host hopens h
  have hfds : (closeFile host dst s).2.fds = fds := by rw [closeFile_closes hopens]
  have hdriver : (closeFile host dst s).2.driver = driver := by rw [closeFile_closes hopens]
  exact ⟨hclose.congr ite_success.symm rfl, hfds, hdriver⟩

theorem closeSrc_over {src dst : OpenFile} {status : ExitStatus}
    (hopens : OpenBoth host fds driver src dst s)
    (h : Holds s [.handle src.handle, .fd src.fd, .handle dst.handle, .fd dst.fd]
      (status = .success)) :
    Over fds driver (closeSrc host src dst status s) := by
  obtain ⟨s₁, hdst, hsrc⟩ := hopens
  have hclose := closeFile_holds host hsrc h
  exact closeDst_over (hdst.congr (closeFile_tables host hsrc))
    (hclose.congr ite_success.symm rfl)

theorem freeDevbuf_over {status : ExitStatus} (hopens : OpenBoth host fds driver job.src job.dst s)
    (h : Holds s job.resources (status = .success)) :
    Over fds driver (freeDevbuf host job status s) := by
  have hfree : Holds (s.log (.hipFree job.devbuf (host.hipFree s.calls job.devbuf)))
      job.resources.tail _ := h.call rfl fun lost => by
    -- a buffer that is not taken back is lost
    cases host.hipFree s.calls job.devbuf with
    | true => exact Or.inl apply_release
    | false => exact Or.inr ⟨_, rfl, apply_lose⟩
  refine closeSrc_over (hopens.congr ⟨rfl, rfl⟩) (hfree.congr ?_ rfl)
  rw [ite_success]
  simp [Call.Failed]

/-- What holds of a program that may be running. -/
def Ends (fds : FdTable) (r : Option ExitStatus × State) : Prop :=
  ∃ st, Holds r.2 st (r.1 ≠ some .failure) ∧
    (r.1 ≠ none → st = [] ∧ r.2.fds = fds ∧ r.2.driver.fileMap = .empty)

theorem Over.ends {r : ExitStatus × State} (h : Over fds driver r)
    (hempty : driver.fileMap = .empty) : Ends fds (r.map some id) := by
  obtain ⟨hholds, hfds, hdriver⟩ := h
  refine ⟨[], hholds.congr ?_ rfl, fun _ => ⟨rfl, hfds, ?_⟩⟩
  · rcases r with ⟨_ | _, s⟩ <;> simp
  · rw [Prod.map_snd, id_eq, hdriver, hempty]

theorem copyFile_ends (fileSize blockSize : ℕ) {src dst : OpenFile}
    (hempty : driver.fileMap = .empty) (hopens : OpenBoth host fds driver src dst s)
    (h : Holds s [.handle src.handle, .fd src.fd, .handle dst.handle, .fd dst.fd] True) :
    Ends fds (copyFile host rounds fileSize blockSize src dst s) := by
  unfold copyFile
  simp only
  set size := alignUp (min fileSize AISCP_CHUNK_SIZE) blockSize with hsize
  cases hmalloc : host.hipMalloc s.calls size with
  | none =>
    have hlog := h.log (c := .hipMalloc size none) fun _ => apply_use (List.nil_subset _)
    refine Over.ends (closeSrc_over (hopens.congr ⟨rfl, rfl⟩) ?_) hempty
    exact hlog.congr (by simp [Call.Failed]) rfl
  | some devbuf =>
    have hlog := h.log (c := .hipMalloc size (some devbuf))
      fun _ => apply_acquire (List.nil_subset _)
    have hheld : Holds _ (Job.resources ⟨src, dst, devbuf, size, blockSize⟩) True :=
      hlog.congr (by simp [Call.Failed]) rfl
    have hcopy := copy_holds host rounds hheld
    simp only
    split <;> rename_i hloop <;> rw [hloop] at hcopy <;> obtain ⟨hcopy, hsame⟩ := hcopy
    · exact ⟨_, hcopy.congr (by simp) rfl, by simp⟩
    · refine Over.ends (freeDevbuf_over (hopens.congr hsame) ?_) hempty
      exact hcopy.congr (by simp) rfl
    · refine Over.ends (freeDevbuf_over
        (hopens.congr (hsame.trans (ftruncate_tables host dst.fd fileSize _))) ?_) hempty
      exact (ftruncate_holds fileSize hcopy).congr (by simp) rfl

theorem main_holds (host : Host) (rounds : ℕ) (files : ℕ → FileData) (fds : FdTable) (dev : Mem)
    (hblock : ∀ statbuf ∈ host.stat, isPowerOfTwo (toSizeT statbuf.stBlksize) = true) :
    Ends fds (main host rounds 3 (.start files fds dev)) := by
  have hstart : Holds (.start files fds dev) [] True := by
    refine ⟨⟨[], rfl, fun r hr => absurd hr List.not_mem_nil⟩, ?_⟩
    simp [State.start]
  unfold main
  simp only
  cases hstat : host.stat with
  | none =>
    have hlog := hstart.log (c := .stat false) fun _ => apply_use (List.nil_subset _)
    exact ⟨[], hlog.congr (by simp [Call.Failed]) rfl, fun _ => ⟨rfl, rfl, rfl⟩⟩
  | some statbuf =>
    have hlog := hstart.log (c := .stat true) fun _ => apply_use (List.nil_subset _)
    have hlog : Holds ((State.start files fds dev).log (.stat true)) [] True :=
      hlog.congr (by simp [Call.Failed]) rfl
    obtain ⟨-, hdst⟩ := openFile_opens host .dst
      (s := (State.start files fds dev).log (.stat true)) DriverState.Inv.init atMostOne_empty
    have hheld := openFile_holds host .dst (s := (State.start files fds dev).log (.stat true))
      DriverState.Inv.init atMostOne_empty hlog
    simp only [hblock statbuf hstat, Option.isSome_some, if_true, ne_eq, not_true_eq_false,
      if_false]
    split <;> rename_i hopen <;> rw [hopen] at hdst hheld
    · obtain ⟨hfds, hdriver⟩ := hdst
      refine ⟨[], hheld.congr (by simp) rfl, fun _ => ⟨rfl, hfds, ?_⟩⟩
      rw [hdriver]
      rfl
    · rename_i dst s₁
      simp only at hdst hheld
      split
      · refine Over.ends (closeDst_over hdst ?_) rfl
        exact hheld.congr (by simp) rfl
      · -- DEST is registered by now, so that the driver is initialised
        obtain ⟨-, hsrc⟩ := openFile_opens host .src hdst.inv (hdst.atMostOne rfl)
        have hboth := openFile_holds host .src hdst.inv (hdst.atMostOne rfl) hheld
        split <;> rename_i hopen <;> rw [hopen] at hsrc hboth
        · refine Over.ends (closeDst_over (hdst.congr hsrc) ?_) rfl
          exact hboth.congr (by simp) rfl
        · rw [hdst.implicitInit] at hsrc
          exact copyFile_ends _ _ rfl ⟨s₁, hdst, hsrc⟩ hboth

/-- **However the program ends**: it has used only what it held at that moment, it has given back
all that it has acquired, in the reverse order, but for device memory that `hipFree` did not take;
no file is registered any more, and the descriptors are as at first. Its status is a success
exactly if it was given two paths, the block size is a power of two and none of its calls has
failed, `ftruncate` apart. -/
theorem main_ends (host : Host) (rounds argc : ℕ) (files : ℕ → FileData) (fds : FdTable)
    (dev : Mem) :
    let r := main host rounds argc (.start files fds dev)
    ∃ st lost, held ⟨[], []⟩ (r.2.trace.map Call.effect) = some ⟨st, lost⟩ ∧
      (∀ x ∈ lost, ∃ p, x = .devbuf p ∧ .hipFree p false ∈ r.2.trace) ∧
      (r.1 ≠ none → st = [] ∧ r.2.fds = fds ∧ r.2.driver.fileMap = .empty) ∧
      (r.1 ≠ some .failure ↔ argc = 3 ∧
        (∀ statbuf ∈ host.stat, isPowerOfTwo (toSizeT statbuf.stBlksize) = true) ∧
          ∀ c ∈ r.2.trace, ¬ c.Failed) := by
  intro r
  by_cases hargc : argc = 3
  · subst hargc
    by_cases hblock : ∀ statbuf ∈ host.stat, isPowerOfTwo (toSizeT statbuf.stBlksize) = true
    · obtain ⟨st, hholds, hend⟩ := main_holds host rounds files fds dev hblock
      obtain ⟨lost, hheld, hlost⟩ := hholds.held
      refine ⟨st, lost, hheld, hlost, hend, hholds.clean.trans ?_⟩
      exact ⟨fun hclean => ⟨rfl, hblock, hclean⟩, fun h => h.2.2⟩
    · -- the file system of SOURCE has another block size
      have hr : r = (some .failure, (State.start files fds dev).log (.stat true)) := by
        show main host rounds 3 _ = _
        unfold main
        cases hstat : host.stat with
        | none =>
          rw [hstat] at hblock
          exact absurd (fun statbuf h => absurd h (Option.not_mem_none statbuf)) hblock
        | some statbuf =>
          have hnot : ¬ isPowerOfTwo (toSizeT statbuf.stBlksize) = true := by
            rw [hstat] at hblock
            simpa using hblock
          simp only [hnot, Option.isSome_some, ne_eq, not_true_eq_false, if_false,
            Bool.false_eq_true]
      rw [hr]
      refine ⟨[], [], rfl, fun x hx => absurd hx List.not_mem_nil, fun _ => ⟨rfl, rfl, rfl⟩, ?_⟩
      exact iff_of_false (fun h => h rfl) fun h => hblock h.2.1
  · have hr : r = (some .failure, .start files fds dev) := if_pos hargc
    rw [hr]
    refine ⟨[], [], rfl, fun x hx => absurd hx List.not_mem_nil, fun _ => ⟨rfl, rfl, rfl⟩, ?_⟩
    exact iff_of_false (fun h => h rfl) fun h => hargc h.1

end HipFile.Aiscp
