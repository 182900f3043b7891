import HipFile.Model.Descriptors
import HipFile.Proof.Batch
import HipFile.Proof.Registry

/-!
# Descriptor ownership

* `build_cases`: the constructor of `UnregisteredFile` opens at most one descriptor, which
  its result owns; an exception leaves the process's descriptors as they were.
* `Registry.alive_of_step`: no step but its registration makes a `File` alive.
* `Inv`: the open descriptors of the library are those of the `File`s that are alive and
  of the registrations in progress.
* `descriptors_owned`: what follows in every run.
-/

namespace HipFile

/-! ## The flags -/

theorem clearDirect_and (x : ℕ) : clearDirect x &&& O_DIRECT = 0 := by
  have hmask : (2 ^ 32 - 1 - O_DIRECT) &&& O_DIRECT = 0 := by decide
  rw [clearDirect, Nat.and_assoc, hmask, Nat.and_zero]

theorem or_direct_and (x : ℕ) : (x ||| O_DIRECT) &&& O_DIRECT ≠ 0 := by
  have h : (x ||| O_DIRECT) &&& O_DIRECT = O_DIRECT := by
    refine Nat.eq_of_testBit_eq fun i => ?_
    rw [Nat.testBit_and, Nat.testBit_or]
    cases x.testBit i <;> simp
  rw [h]
  decide

namespace UnregisteredFile

/-- The file is opened again with direct IO exactly if the client has it without. -/
theorem openFlags_direct (flags : ℕ) :
    openFlags flags &&& O_DIRECT = 0 ↔ flags &&& O_DIRECT ≠ 0 := by
  unfold openFlags
  split
  · rename_i h
    exact iff_of_true (clearDirect_and _) h
  · rename_i h
    exact iff_of_false (or_direct_and _) h

/-! ## The constructor -/

/-- The constructor with descriptors returns what the constructor returns. -/
theorem build_fst (calls : FileCalls) (fd : ℤ) (os : FdTable) :
    (build calls fd os).1 = construct calls fd := by
  unfold build construct
  cases calls.statx with
  | error e => rfl
  | ok stx =>
  cases calls.fcntl with
  | error e => rfl
  | ok flags =>
  cases calls.getMountInfo with
  | error e => rfl
  | ok mountinfo =>
    simp only
    split
    · cases calls.openFd (clearDirect (flags ||| O_CLOEXEC)) <;> rfl
    · cases calls.openFd ((flags ||| O_CLOEXEC) ||| O_DIRECT) with
      | error e => simp only; split <;> rfl
      | ok n => rfl

/-- **What the constructor does to descriptors.** -/
theorem build_cases (calls : FileCalls) (fd : ℤ) (os : FdTable) :
    (∃ e, build calls fd os = (.error e, os)) ∨
      ∃ uf, calls.fcntl = .ok uf.flags ∧
        ((build calls fd os = (.ok uf, os) ∧ uf.flags &&& O_DIRECT = 0 ∧
            uf.members = ⟨.makeUnmanaged fd, .makeUnmanaged fd, none⟩) ∨
          ∃ n, calls.openFd (openFlags uf.flags) = .ok n ∧
            build calls fd os = (.ok uf, os.openOwn n (openFlags uf.flags)) ∧
            uf.members = if uf.flags &&& O_DIRECT ≠ 0
              then ⟨.makeUnmanaged fd, .makeManaged n, some (.makeUnmanaged fd)⟩
              else ⟨.makeUnmanaged fd, .makeUnmanaged fd, some (.makeManaged n)⟩) := by
  unfold build
  cases hstatx : calls.statx with
  | error e => exact Or.inl ⟨_, rfl⟩
  | ok stx =>
  cases hfcntl : calls.fcntl with
  | error e => exact Or.inl ⟨_, rfl⟩
  | ok flags =>
  cases hmount : calls.getMountInfo with
  | error e => exact Or.inl ⟨_, rfl⟩
  | ok mountinfo =>
    simp only
    generalize (if stx.stxMask &&& STATX_DIOALIGN ≠ 0 then stx.stxDioMemAlign else 4096) = memAlign
    generalize
      (if stx.stxMask &&& STATX_DIOALIGN ≠ 0 then stx.stxDioOffsetAlign else 4096) = offsetAlign
    by_cases hdirect : flags &&& O_DIRECT ≠ 0
    · have hflags : openFlags flags = clearDirect (flags ||| O_CLOEXEC) := if_pos hdirect
      rw [if_pos hdirect]
      cases hopen : calls.openFd (clearDirect (flags ||| O_CLOEXEC)) with
      | error e => exact Or.inl ⟨_, rfl⟩
      | ok n =>
        refine Or.inr ⟨⟨.makeUnmanaged fd, .makeManaged n, some (.makeUnmanaged fd), stx, flags,
          mountinfo, memAlign, offsetAlign⟩, rfl, Or.inr ⟨n, ?_, ?_, ?_⟩⟩
        · show calls.openFd (openFlags flags) = .ok n
          rw [hflags, hopen]
        · show _ = (_, os.openOwn n (openFlags flags))
          rw [hflags]
          rfl
        · exact (if_pos hdirect).symm
    · have hflags : openFlags flags = (flags ||| O_CLOEXEC) ||| O_DIRECT := if_neg hdirect
      rw [if_neg hdirect]
      cases hopen : calls.openFd ((flags ||| O_CLOEXEC) ||| O_DIRECT) with
      | error e =>
        simp only
        split
        · exact Or.inl ⟨_, rfl⟩
        · -- `EINVAL` leaves the file without an unbuffered descriptor
          exact Or.inr ⟨⟨.makeUnmanaged fd, .makeUnmanaged fd, none, stx, flags, mountinfo, 0, 0⟩,
            rfl, Or.inl ⟨rfl, not_not.1 hdirect, rfl⟩⟩
      | ok n =>
        refine Or.inr ⟨⟨.makeUnmanaged fd, .makeUnmanaged fd, some (.makeManaged n), stx, flags,
          mountinfo, memAlign, offsetAlign⟩, rfl, Or.inr ⟨n, ?_, ?_, ?_⟩⟩
        · show calls.openFd (openFlags flags) = .ok n
          rw [hflags, hopen]
        · show _ = (_, os.openOwn n (openFlags flags))
          rw [hflags]
          rfl
        · exact (if_neg hdirect).symm

end UnregisteredFile

/-! ## The life of a `File` -/

namespace Registry

variable {s s' : Registry} {l : Step}

/-- Who references an object. -/
theorem alive_iff {o : SharedObject} : s.Alive o ↔
    (∃ fd f, s.fromFd.lookup fd = some f ∧ f.object = o) ∨
    (∃ fh f, s.fromFh.lookup fh = some f ∧ f.object = o) ∨
    (∃ p b, s.fromPtr.lookup p = some b ∧ b.ref = o) ∨
    (∃ r ∈ s.outside, r.2 = o) ∨
    ∃ c ctx, s.contexts.lookup c = some ctx ∧ ∃ op ∈ ctx.outstandingOps, o ∈ op.refs := by
  have htable {κ α : Type} [DecidableEq κ] (t : Table κ α) (tag : α → SharedObject) :
      o ∈ (Table.values t).map tag ↔ ∃ k a, t.lookup k = some a ∧ tag a = o := by
    rw [List.mem_map]
    constructor
    · rintro ⟨a, ha, heq⟩
      obtain ⟨k, hk⟩ := Table.mem_values.1 ha
      exact ⟨k, a, hk, heq⟩
    · rintro ⟨k, a, hk, heq⟩
      exact ⟨a, Table.mem_values.2 ⟨k, hk⟩, heq⟩
  have hbatch : o ∈ s.batchRefs ↔
      ∃ c ctx, s.contexts.lookup c = some ctx ∧ ∃ op ∈ ctx.outstandingOps, o ∈ op.refs := by
    unfold batchRefs
    rw [List.mem_flatMap]
    constructor
    · rintro ⟨ctx, hctx, ho⟩
      obtain ⟨c, hc⟩ := Table.mem_values.1 hctx
      exact ⟨c, ctx, hc, List.mem_flatMap.1 ho⟩
    · rintro ⟨c, ctx, hc, ho⟩
      exact ⟨ctx, Table.mem_values.2 ⟨c, hc⟩, List.mem_flatMap.2 ho⟩
  simp only [Alive, refs, tableRefs, outsideRefs, List.mem_append, htable, hbatch,
    List.mem_map, or_assoc]

theorem fromFd_alive {fd : ℤ} {f : IFile} (h : s.fromFd.lookup fd = some f) :
    s.Alive f.object := alive_iff.2 (Or.inl ⟨fd, f, h, rfl⟩)

theorem alive_of_outside {r : Holder × SharedObject} (hr : r ∈ s.outside) : s.Alive r.2 :=
  alive_iff.2 (Or.inr (Or.inr (Or.inr (Or.inl ⟨r, hr, rfl⟩))))

theorem alive_of_context {c : ℕ} {ctx : BatchContext} {op : BatchOperation} {o : SharedObject}
    (hc : s.contexts.lookup c = some ctx) (hop : op ∈ ctx.outstandingOps) (ho : o ∈ op.refs) :
    s.Alive o := alive_iff.2 (Or.inr (Or.inr (Or.inr (Or.inr ⟨c, ctx, hc, op, hop, ho⟩))))

/-- Whether an object was alive before, by each of the references that it has after. -/
theorem Alive.before {o : SharedObject} (h : s'.Alive o)
    (hfd : ∀ fd f, s'.fromFd.lookup fd = some f → f.object = o → s.Alive o)
    (hfh : ∀ fh f, s'.fromFh.lookup fh = some f → f.object = o → s.Alive o)
    (hptr : ∀ p b, s'.fromPtr.lookup p = some b → b.ref = o → s.Alive o)
    (hout : ∀ r ∈ s'.outside, r.2 = o → s.Alive o)
    (hctx : ∀ c ctx, s'.contexts.lookup c = some ctx → ∀ op ∈ ctx.outstandingOps,
      o ∈ op.refs → s.Alive o) : s.Alive o := by
  rcases alive_iff.1 h with ⟨fd, f, hf, ho⟩ | ⟨fh, f, hf, ho⟩ | ⟨p, b, hb, ho⟩ | ⟨r, hr, ho⟩ |
    ⟨c, ctx, hc, op, hop, ho⟩
  · exact hfd fd f hf ho
  · exact hfh fh f hf ho
  · exact hptr p b hb ho
  · exact hout r hr ho
  · exact hctx c ctx hc op hop ho

/-- A `File` is alive after a step that it was alive before, or that registers it. -/
theorem alive_of_step {handle : ℕ} (h : machine.step s l = some s')
    (hs' : s'.Alive (.file handle)) :
    s.Alive (.file handle) ∨ ∃ uf, l = .registerFile uf handle := by
  have hfd : ∀ fd f, s.fromFd.lookup fd = some f → f.object = .file handle →
      s.Alive (.file handle) := fun fd f hf ho => ho ▸ fromFd_alive hf
  have hfh : ∀ fh f, s.fromFh.lookup fh = some f → f.object = .file handle →
      s.Alive (.file handle) := fun fh f hf ho => ho ▸ fromFh_alive hf
  have hptr : ∀ p b, s.fromPtr.lookup p = some b → b.ref = .file handle →
      s.Alive (.file handle) := fun p b _ => nofun
  have hout : ∀ r ∈ s.outside, r.2 = .file handle → s.Alive (.file handle) :=
    fun r hr ho => ho ▸ alive_of_outside hr
  have hctx : ∀ c ctx, s.contexts.lookup c = some ctx → ∀ op ∈ ctx.outstandingOps,
      .file handle ∈ op.refs → s.Alive (.file handle) :=
    fun c ctx hc op hop ho => alive_of_context hc hop ho
  cases step_moves h with
  | leaves n => exact Or.inl hs'
  | @insertFile uf handle' n hfresh hnew =>
    by_cases heq : handle' = handle
    · exact Or.inr ⟨uf, by rw [heq]⟩
    · have hother : (File.construct handle' uf).object ≠ .file handle :=
        fun hobj => heq (SharedObject.file.inj hobj)
      refine Or.inl (hs'.before ?_ ?_ hptr hout hctx)
      · intro fd f hf ho
        rcases Table.lookup_insert_cases hf with ⟨rfl, rfl⟩ | ⟨-, hf⟩
        · exact absurd ho hother
        · exact hfd fd f hf ho
      · intro fh f hf ho
        rcases Table.lookup_insert_cases hf with ⟨rfl, rfl⟩ | ⟨-, hf⟩
        · exact absurd ho hother
        · exact hfh fh f hf ho
  | eraseFile hf huse =>
    refine Or.inl (hs'.before ?_ ?_ hptr hout hctx)
    · intro fd f hf ho
      exact hfd fd f (Table.lookup_erase_some hf).2 ho
    · intro fh f hf ho
      exact hfh fh f (Table.lookup_erase_some hf).2 ho
  | insertBuffer n hfresh hnew hobject =>
    exact Or.inl (hs'.before hfd hfh (fun _ _ _ => nofun) hout hctx)
  | eraseBuffer hb huse =>
    exact Or.inl (hs'.before hfd hfh (fun _ _ _ => nofun) hout hctx)
  | lookup hf hb =>
    refine Or.inl (hs'.before hfd hfh hptr ?_ hctx)
    intro r hr ho
    rcases List.mem_cons.1 hr with rfl | hr
    · exact hfh _ _ hf ho
    · rcases List.mem_cons.1 hr with rfl | hr
      · cases ho
      · exact hout r hr ho
  | copy hr =>
    refine Or.inl (hs'.before hfd hfh hptr ?_ hctx)
    intro r' hr' ho
    rcases List.mem_cons.1 hr' with rfl | hr'
    · exact hout _ hr ho
    · exact hout r' hr' ho
  | drop hr =>
    refine Or.inl (hs'.before hfd hfh hptr ?_ hctx)
    intro r' hr' ho
    exact hout r' (List.mem_of_mem_erase hr') ho
  | clear hpos =>
    exact Or.inl (hs'.before (fun _ _ => nofun) (fun _ _ => nofun) (fun _ _ => nofun) hout hctx)
  | createContext hcapacity hnew =>
    refine Or.inl (hs'.before hfd hfh hptr hout ?_)
    intro c ctx hc op hop ho
    rcases Table.lookup_insert_cases hc with ⟨rfl, rfl⟩ | ⟨-, hc⟩
    · -- a new context has no operations
      obtain ⟨-, -, rfl⟩ := BatchContext.construct_ok hcapacity
      cases hop
    · exact hctx c ctx hc op hop ho
  | @acceptOperations t context ops ctx hcontext hok =>
    obtain ⟨-, hfresh, -, hpending⟩ := hok
    refine Or.inl (hs'.before hfd hfh hptr ?_ ?_)
    · intro r hr ho
      exact hout r (List.diff_subset _ _ hr) ho
    · intro c ctx' hc op hop ho
      rcases Table.lookup_insert_cases hc with ⟨rfl, rfl⟩ | ⟨-, hc⟩
      · rw [BatchContext.foldl_insert ops _ hfresh] at hop
        rcases List.mem_append.1 hop with hop | hop
        · exact hctx c ctx hcontext op hop ho
        · -- the thread that has made the operation held its objects
          refine hout (.thread t, .file handle) (hpending.subset ?_) rfl
          exact List.mem_map.2 ⟨_, List.mem_flatMap.2 ⟨op, hop, ho⟩, rfl⟩
      · exact hctx c ctx' hc op hop ho

/-- A registered file was registered before the step, unless the step registers it. -/
theorem fromFh_of_step {fh : ℕ} {f : IFile} (h : machine.step s l = some s')
    (hf : s'.fromFh.lookup fh = some f) :
    s.fromFh.lookup fh = some f ∨ ∃ uf handle, l = .registerFile uf handle := by
  cases step_moves h with
  | insertFile n hfresh hnew => exact Or.inr ⟨_, _, rfl⟩
  | eraseFile hfile huse =>
    exact Or.inl (Table.lookup_erase_some hf).2
  | clear hpos => cases hf
  | _ => exact Or.inl hf

/-- What `registerFile` does. -/
theorem registerFile_cases (uf : UnregisteredFile) (handle : ℕ) (s : Registry) : ∃ n,
    registerFile uf handle s = (.error .fileAlreadyRegistered, { s with refCount := n }) ∨
      s.fromFd.lookup uf.clientFd.fd = none ∧ registerFile uf handle s = (.ok handle, { s with
        refCount := n
        fromFd := s.fromFd.insert uf.clientFd.fd (File.construct handle uf)
        fromFh := s.fromFh.insert handle (File.construct handle uf) }) := by
  obtain ⟨n, hn⟩ := implicitInit_eq s
  refine ⟨n, ?_⟩
  have heq : registerFile uf handle s = insertFile uf handle (implicitInit s) := rfl
  rw [heq, hn]
  unfold insertFile
  split
  · exact Or.inl rfl
  · rename_i hfd
    exact Or.inr ⟨by simpa using hfd, rfl⟩

/-- A new `File` takes no references from the objects that there are. -/
theorem Alive.registerFile {o : SharedObject} (h : s.Alive o) {uf : UnregisteredFile}
    {handle : ℕ} {n : ℤ} (hI : Inv s) (hfresh : ¬ s.Alive (.file handle))
    (hnew : s.fromFd.lookup uf.clientFd.fd = none) :
    Alive { s with
      refCount := n
      fromFd := s.fromFd.insert uf.clientFd.fd (File.construct handle uf)
      fromFh := s.fromFh.insert handle (File.construct handle uf) } o := by
  rw [alive_iff] at h ⊢
  simp only [Table.lookup_insert_eq]
  rcases h with ⟨fd, f, hf, ho⟩ | ⟨fh, f, hf, ho⟩ | hrest
  · have hne : fd ≠ uf.clientFd.fd := by
      rintro rfl
      rw [hnew] at hf
      cases hf
    exact Or.inl ⟨fd, f, (if_neg hne).trans hf, ho⟩
  · have hne : fh ≠ handle := by
      intro heq
      have halive := fromFh_alive hf
      rw [IFile.object, ← (hI.fh fh f hf).1, heq] at halive
      exact hfresh halive
    exact Or.inr (Or.inl ⟨fh, f, (if_neg hne).trans hf, ho⟩)
  · exact Or.inr (Or.inr hrest)

end Registry

/-! ## Destruction -/

/-- The members close what they own. -/
theorem FileMembers.destroy_eq (m : FileMembers) (serial : ℕ) (os : FdTable) :
    m.destroy os = os.closeAll ((m.owned serial).map Prod.fst) := by
  unfold FileMembers.destroy FileMembers.owned
  induction m.descriptors generalizing os with
  | nil => rfl
  | cons x xs ih =>
    rw [List.foldl_cons, ih, FileDescriptor.destroy]
    by_cases hx : x.Owns
    · rw [if_pos hx, List.filter_cons_of_pos (by simpa using hx)]
      rfl
    · rw [if_neg hx, List.filter_cons_of_neg (by simpa using hx)]

/-- A managed descriptor is owned. -/
theorem FileMembers.mem_owned {m : FileMembers} {serial : ℕ} {fd : ℤ} {n : ℕ} :
    (fd, n) ∈ m.owned serial ↔ n = serial ∧ ∃ x ∈ m.descriptors, x.Owns ∧ x.fd = fd := by
  unfold FileMembers.owned
  rw [List.mem_map]
  constructor
  · rintro ⟨x, hx, heq⟩
    cases heq
    obtain ⟨hmem, howns⟩ := List.mem_filter.1 hx
    exact ⟨rfl, x, hmem, by simpa using howns, rfl⟩
  · rintro ⟨rfl, x, hmem, howns, rfl⟩
    exact ⟨x, List.mem_filter.2 ⟨hmem, by simpa using howns⟩, rfl⟩

namespace Descriptors

/-- The descriptors that the objects own. -/
def objectOwners (objects : List FileObject) : List (ℤ × ℕ) :=
  objects.flatMap fun f => f.members.owned f.serial

theorem objectOwners_cons (f : FileObject) (fs : List FileObject) :
    objectOwners (f :: fs) = f.members.owned f.serial ++ objectOwners fs := List.flatMap_cons

/-- **The destruction of the dead objects** closes what they own. -/
theorem destroyDead_eq (registry : Registry) (objects : List FileObject) (os : FdTable) :
    destroyDead registry objects os =
      (objects.filter fun f => registry.Alive (.file f.handle),
        os.closeAll ((objectOwners
          (objects.filter fun f => ¬ registry.Alive (.file f.handle))).map Prod.fst)) := by
  induction objects generalizing os with
  | nil => rfl
  | cons f fs ih =>
    rw [destroyDead]
    by_cases hf : registry.Alive (.file f.handle)
    · rw [if_pos hf, List.filter_cons_of_pos (by simpa using hf),
        List.filter_cons_of_neg (by simpa using hf), ih]
    · rw [if_neg hf, List.filter_cons_of_neg (by simpa using hf),
        List.filter_cons_of_pos (by simpa using hf), ih, objectOwners_cons,
        List.map_append, HandleTable.closeAll_append, ← FileMembers.destroy_eq]

/-- The dead objects and those alive own what all of them own. -/
theorem objectOwners_perm (registry : Registry) (objects : List FileObject) :
    (objectOwners objects).Perm
      (objectOwners (objects.filter fun f => ¬ registry.Alive (.file f.handle)) ++
        objectOwners (objects.filter fun f => registry.Alive (.file f.handle))) := by
  have hperm := List.filter_append_perm (fun f => decide (registry.Alive (.file f.handle))) objects
  refine (hperm.symm.flatMap_right _).trans ?_
  rw [List.flatMap_append]
  refine List.perm_append_comm.trans ?_
  simp only [objectOwners, decide_not]
  exact .refl _

/-- The descriptors that the registrations in progress own. -/
def registrationOwners (registrations : Table ℕ Registration) : List (ℤ × ℕ) :=
  (Table.values registrations).flatMap fun r => r.uf.members.owned r.serial

theorem registrationOwners_insert (registrations : Table ℕ Registration) (t : ℕ)
    (r : Registration) :
    registrationOwners (registrations.insert t r) =
      r.uf.members.owned r.serial ++ registrationOwners (registrations.erase t) := by
  rw [registrationOwners, Table.values_insert, List.flatMap_cons]
  rfl

theorem registrationOwners_perm {registrations : Table ℕ Registration} {t : ℕ}
    {r : Registration} (h : registrations.lookup t = some r) :
    (registrationOwners registrations).Perm
      (r.uf.members.owned r.serial ++ registrationOwners (registrations.erase t)) := by
  have hperm := (Table.values_perm h).flatMap_right fun r => r.uf.members.owned r.serial
  rw [List.flatMap_cons] at hperm
  exact hperm

theorem registrationOwners_erase {registrations : Table ℕ Registration} {t : ℕ}
    (h : registrations.lookup t = none) :
    registrationOwners (registrations.erase t) = registrationOwners registrations := by
  rw [registrationOwners, Table.values_erase_of_none h, registrationOwners]

theorem owners_leave (d : Descriptors) {t : ℕ} {r : Registration}
    (hr : d.registrations.lookup t = some r) :
    d.owners.Perm (r.uf.members.owned r.serial ++
      (objectOwners d.objects ++ registrationOwners (d.registrations.erase t))) := by
  have hperm := (registrationOwners_perm hr).append_left (objectOwners d.objects)
  exact hperm.trans (List.perm_append_comm_assoc ..)

theorem owners_enter (d : Descriptors) (registry : Registry) :
    d.owners.Perm
      (objectOwners (d.objects.filter fun f => ¬ registry.Alive (.file f.handle)) ++
        (objectOwners (d.objects.filter fun f => registry.Alive (.file f.handle)) ++
          registrationOwners d.registrations)) := by
  rw [← List.append_assoc]
  exact (objectOwners_perm registry d.objects).append_right _

/-! ## The flags of the descriptors in use -/

/-- The descriptor has flags that meet `P`: the client's those that the constructor has
read, the library's those that it was opened with, under the given serial number. -/
def HasFlags (os : FdTable) (m : FileMembers) (flags serial : ℕ) (x : FileDescriptor)
    (P : ℕ → Prop) : Prop :=
  (x = m.clientFd ∧ P flags) ∨
    (x.Owns ∧ ∃ f, os.entries x.fd = some ⟨.own serial, f⟩ ∧ P f)

/-- The buffered descriptor lacks `O_DIRECT`, and the unbuffered one has it. -/
structure Split (os : FdTable) (m : FileMembers) (flags serial : ℕ) : Prop where
  client : m.clientFd.managed = false
  buffered : HasFlags os m flags serial m.bufferedFd fun f => f &&& O_DIRECT = 0
  unbuffered : ∀ u ∈ m.unbufferedFd, HasFlags os m flags serial u fun f => f &&& O_DIRECT ≠ 0

/-- What the members own, as the table of descriptors had it, is enough. -/
theorem Split.frame {os os' : FdTable} {m : FileMembers} {flags serial : ℕ}
    (h : Split os m flags serial)
    (hos : ∀ k n, (k, n) ∈ m.owned serial → os'.entries k = os.entries k) :
    Split os' m flags serial := by
  have hflags : ∀ x ∈ m.descriptors, ∀ P, HasFlags os m flags serial x P →
      HasFlags os' m flags serial x P := by
    intro x hx P hP
    rcases hP with hP | ⟨howns, f, hf, hP⟩
    · exact Or.inl hP
    · have hmem : (x.fd, serial) ∈ m.owned serial :=
        FileMembers.mem_owned.2 ⟨rfl, x, hx, howns, rfl⟩
      exact Or.inr ⟨howns, f, (hos _ _ hmem).trans hf, hP⟩
  refine ⟨h.client, hflags _ ?_ _ h.buffered, ?_⟩
  · simp [FileMembers.descriptors]
  · intro u hu
    refine hflags u ?_ _ (h.unbuffered u hu)
    exact List.mem_append_left _ (Option.mem_toList.2 hu)

/-- **The constructor gives a split file**, and owns what it has opened. -/
theorem build_split {os os' : FdTable} {calls : FileCalls} {fd : ℤ} {uf : UnregisteredFile}
    (hanswers : Answers os calls fd = true)
    (h : UnregisteredFile.build calls fd os = (.ok uf, os')) :
    (os.entries fd).map HandleEntry.data = some uf.flags ∧ uf.clientFd = .makeUnmanaged fd ∧
      Split os' uf.members uf.flags os.nextSerial ∧
      ((os' = os ∧ uf.members.owned os.nextSerial = []) ∨
        ∃ n flags, os.entries n = none ∧ os' = os.openOwn n flags ∧
          uf.members.owned os.nextSerial = [(n, os.nextSerial)]) := by
  rcases UnregisteredFile.build_cases calls fd os with ⟨e, hb⟩ | ⟨uf', hfcntl, hb⟩
  · rw [hb] at h; cases h
  simp only [Answers, hfcntl, Bool.and_eq_true, decide_eq_true_eq] at hanswers
  obtain ⟨hclient, hopened⟩ := hanswers
  rcases hb with ⟨hb, hflags, hm⟩ | ⟨n, hopen, hb, hm⟩
  · rw [hb] at h
    cases h
    refine ⟨hclient, congrArg FileMembers.clientFd hm, ?_, Or.inl ⟨rfl, ?_⟩⟩
    · rw [hm]
      exact ⟨rfl, Or.inl ⟨rfl, hflags⟩, nofun⟩
    · rw [hm]
      rfl
  · rw [hopen] at hopened
    simp only [Bool.and_eq_true, decide_eq_true_eq] at hopened
    obtain ⟨hpos, hnone⟩ := hopened
    rw [hb] at h
    cases h
    have howns : (FileDescriptor.makeManaged n).Owns := by
      refine ⟨rfl, ?_⟩
      show n ≠ -1
      omega
    have hclient' : ¬ (FileDescriptor.makeUnmanaged fd).Owns := fun h => by cases h.1
    have hentry : (os.openOwn n (UnregisteredFile.openFlags uf.flags)).entries n =
        some ⟨.own os.nextSerial, UnregisteredFile.openFlags uf.flags⟩ := Function.update_self ..
    by_cases hdirect : uf.flags &&& O_DIRECT ≠ 0
    · rw [if_pos hdirect] at hm
      refine ⟨hclient, congrArg FileMembers.clientFd hm, ?_, Or.inr ⟨n, _, hnone, rfl, ?_⟩⟩
      · rw [hm]
        refine ⟨rfl, Or.inr ⟨howns, _, hentry, ?_⟩, ?_⟩
        · exact (UnregisteredFile.openFlags_direct _).2 hdirect
        · intro u hu
          cases hu
          exact Or.inl ⟨rfl, hdirect⟩
      · rw [hm]
        simp [FileMembers.owned, FileMembers.descriptors, howns, hclient']
        rfl
    · rw [if_neg hdirect] at hm
      refine ⟨hclient, congrArg FileMembers.clientFd hm, ?_, Or.inr ⟨n, _, hnone, rfl, ?_⟩⟩
      · rw [hm]
        refine ⟨rfl, Or.inl ⟨rfl, not_not.1 hdirect⟩, ?_⟩
        intro u hu
        cases hu
        refine Or.inr ⟨howns, _, hentry, fun h0 => hdirect ?_⟩
        exact (UnregisteredFile.openFlags_direct _).1 h0
      · rw [hm]
        simp [FileMembers.owned, FileMembers.descriptors, howns, hclient']
        rfl

/-! ## The invariant -/

/-- The object is that of the file. -/
structure Describes (o : FileObject) (f : IFile) : Prop where
  handle : f.handle = o.handle
  clientFd : f.clientFd = o.members.clientFd.fd
  bufferedFd : f.bufferedFd = o.members.bufferedFd.fd
  unbufferedFd : f.unbufferedFd = o.members.unbufferedFd.map FileDescriptor.fd

/-- **Every reachable state.** The objects are the `File`s that are alive, those of the
tables among them; the open descriptors of the library are those that the objects and the
registrations in progress own. -/
structure Inv (d : Descriptors) : Prop where
  registry : Registry.machine.Reachable d.registry
  handles : (d.objects.map FileObject.handle).Nodup
  alive : ∀ fh, d.registry.Alive (.file fh) ↔ ∃ o ∈ d.objects, o.handle = fh
  files : ∀ fh f, d.registry.fromFh.lookup fh = some f → ∃ o ∈ d.objects, Describes o f
  accounted : d.os.Accounted d.owners
  objects : ∀ o ∈ d.objects, Split d.os o.members o.flags o.serial
  registrations : ∀ t r, d.registrations.lookup t = some r → r.tried = false →
    Split d.os r.uf.members r.uf.flags r.serial

variable {d d' : Descriptors}

theorem Inv.init : Inv init where
  registry := .init
  handles := List.nodup_nil
  alive _ := ⟨nofun, nofun⟩
  files _ _ hf := absurd hf Table.lookup_empty_ne
  accounted := HandleTable.Accounted.empty
  objects _ := nofun
  registrations _ _ hr := absurd hr Table.lookup_empty_ne

theorem mem_objectOwners {objects : List FileObject} {o : FileObject} {kn : ℤ × ℕ}
    (ho : o ∈ objects) (h : kn ∈ o.members.owned o.serial) : kn ∈ objectOwners objects :=
  List.mem_flatMap.2 ⟨o, ho, h⟩

theorem mem_registrationOwners {registrations : Table ℕ Registration} {t : ℕ} {r : Registration}
    {kn : ℤ × ℕ} (hr : registrations.lookup t = some r) (h : kn ∈ r.uf.members.owned r.serial) :
    kn ∈ registrationOwners registrations :=
  List.mem_flatMap.2 ⟨r, Table.mem_values.2 ⟨t, hr⟩, h⟩

theorem owners_eq (d : Descriptors) :
    d.owners = objectOwners d.objects ++ registrationOwners d.registrations := rfl

/-- What the objects own stays as it was. -/
theorem Inv.objects_frame (hI : Inv d) {os : FdTable} {objects : List FileObject}
    (hsub : objects ⊆ d.objects)
    (hos : ∀ kn ∈ objectOwners objects, os.entries kn.1 = d.os.entries kn.1) :
    ∀ o ∈ objects, Split os o.members o.flags o.serial := by
  intro o ho
  refine (hI.objects o (hsub ho)).frame fun k n hkn => ?_
  exact hos (k, n) (mem_objectOwners ho hkn)

/-- What the registrations in progress own stays as it was. -/
theorem Inv.registrations_frame (hI : Inv d) {os : FdTable}
    {registrations : Table ℕ Registration} {t : ℕ} {r : Registration}
    (hr : d.registrations.lookup t = some r) (hr' : registrations.lookup t = some r)
    (hos : ∀ kn ∈ registrationOwners registrations, os.entries kn.1 = d.os.entries kn.1)
    (htried : r.tried = false) : Split os r.uf.members r.uf.flags r.serial := by
  refine (hI.registrations t r hr htried).frame fun k n hkn => ?_
  exact hos (k, n) (mem_registrationOwners hr' hkn)

/-- Steps that change only descriptors that are not the library's. -/
theorem Inv.foreign (hI : Inv d) {os : FdTable} (hacc : os.Accounted d.owners)
    (hos : ∀ kn ∈ d.owners, os.entries kn.1 = d.os.entries kn.1) : Inv { d with os := os } where
  registry := hI.registry
  handles := hI.handles
  alive := hI.alive
  files := hI.files
  accounted := hacc
  objects := hI.objects_frame (List.Subset.refl _)
    fun kn hkn => hos kn (List.mem_append_left _ hkn)
  registrations _ _ hr := hI.registrations_frame hr hr
    fun kn hkn => hos kn (List.mem_append_right _ hkn)

theorem Inv.construct (hI : Inv d) {t : ℕ} {calls : FileCalls} {fd : ℤ} {uf : UnregisteredFile}
    {os : FdTable} (hnone : d.registrations.lookup t = none)
    (hanswers : Answers d.os calls fd = true)
    (hb : UnregisteredFile.build calls fd d.os = (.ok uf, os)) :
    Inv { d with
      os := os
      registrations := d.registrations.insert t ⟨uf, d.os.nextSerial, false⟩ } := by
  obtain ⟨-, -, hsplit, hopened⟩ := build_split hanswers hb
  have hacc : os.Accounted (uf.members.owned d.os.nextSerial ++ d.owners) := by
    rcases hopened with ⟨rfl, howned⟩ | ⟨n, flags, hfree, rfl, howned⟩
    · rw [howned]
      exact hI.accounted
    · rw [howned]
      exact hI.accounted.openOwn hfree flags
  have hos : ∀ kn ∈ d.owners, os.entries kn.1 = d.os.entries kn.1 := by
    rintro ⟨k, n⟩ hkn
    rcases hopened with ⟨rfl, -⟩ | ⟨n', flags, hfree, rfl, -⟩
    · rfl
    · have hne : k ≠ n' := by
        rintro rfl
        exact hI.accounted.notMem (Or.inl hfree) hkn
      exact Function.update_of_ne hne _ _
  refine ⟨hI.registry, hI.handles, hI.alive, hI.files, ?_, ?_, ?_⟩
  · refine hacc.perm ?_
    rw [owners_eq, owners_eq, registrationOwners_insert, registrationOwners_erase hnone]
    exact List.perm_append_comm_assoc ..
  · exact hI.objects_frame (List.Subset.refl _) fun kn hkn => hos kn (List.mem_append_left _ hkn)
  · intro t' r' hr' htried
    rcases Table.lookup_insert_cases hr' with ⟨rfl, rfl⟩ | ⟨-, hr'⟩
    · exact hsplit
    · exact hI.registrations_frame hr' hr'
        (fun kn hkn => hos kn (List.mem_append_right _ hkn)) htried

/-- A registration that fails leaves the `UnregisteredFile` as it was. -/
theorem Inv.register_error (hI : Inv d) {t : ℕ} {r : Registration} {n : ℤ}
    (hr : d.registrations.lookup t = some r)
    (hreach : Registry.machine.Reachable { d.registry with refCount := n }) :
    Inv { d with
      registry := { d.registry with refCount := n }
      registrations := d.registrations.insert t { r with tried := true } } := by
  refine ⟨hreach, hI.handles, hI.alive, hI.files, ?_, hI.objects, ?_⟩
  · refine hI.accounted.perm ?_
    rw [owners_eq, owners_eq, registrationOwners_insert]
    exact (registrationOwners_perm hr).append_left _
  · intro t' r' hr' htried
    rcases Table.lookup_insert_cases hr' with ⟨rfl, rfl⟩ | ⟨-, hr'⟩
    · cases htried
    · exact hI.registrations t' r' hr' htried

theorem movedFrom_owned (uf : UnregisteredFile) (serial : ℕ) :
    uf.movedFrom.members.owned serial = [] := by
  have hempty : ¬ FileDescriptor.empty.Owns := fun h => by cases h.1
  simp only [FileMembers.owned, UnregisteredFile.members, UnregisteredFile.movedFrom,
    FileMembers.descriptors]
  cases uf.unbufferedFd <;> simp [hempty]

/-- A registration that succeeds moves what the `UnregisteredFile` owns to the `File`. -/
theorem Inv.register_ok (hI : Inv d) {t handle : ℕ} {r : Registration} {n : ℤ}
    (hr : d.registrations.lookup t = some r) (htried : r.tried = false)
    (hfresh : ¬ d.registry.Alive (.file handle))
    (hfd : d.registry.fromFd.lookup r.uf.clientFd.fd = none) {registry : Registry}
    (hregistry : registry = { d.registry with
      refCount := n
      fromFd := d.registry.fromFd.insert r.uf.clientFd.fd (File.construct handle r.uf)
      fromFh := d.registry.fromFh.insert handle (File.construct handle r.uf) })
    (hstep : Registry.machine.step d.registry (.registerFile r.uf handle) = some registry) :
    Inv { d with
      registry := registry
      objects := ⟨handle, r.uf.members, r.uf.flags, r.serial⟩ :: d.objects
      registrations :=
        d.registrations.insert t { r with uf := r.uf.movedFrom, tried := true } } := by
  have hnew : ∀ o ∈ d.objects, o.handle ≠ handle :=
    fun o ho heq => hfresh ((hI.alive handle).2 ⟨o, ho, heq⟩)
  have hlookup (fh : ℕ) : registry.fromFh.lookup fh =
      if fh = handle then some (File.construct handle r.uf) else d.registry.fromFh.lookup fh := by
    rw [hregistry]
    exact Table.lookup_insert_eq ..
  refine ⟨.step _ hI.registry trivial hstep, ?_, ?_, ?_, ?_, ?_, ?_⟩
  · refine List.nodup_cons.2 ⟨?_, hI.handles⟩
    intro hmem
    obtain ⟨o, ho, heq⟩ := List.mem_map.1 hmem
    exact hnew o ho heq
  · intro fh
    constructor
    · intro halive
      -- alive before, or by this registration
      rcases Registry.alive_of_step hstep halive with h | ⟨uf, huf⟩
      · obtain ⟨o, ho, heq⟩ := (hI.alive fh).1 h
        exact ⟨o, List.mem_cons_of_mem _ ho, heq⟩
      · cases huf
        exact ⟨_, List.mem_cons_self, rfl⟩
    · rintro ⟨o, ho, rfl⟩
      rcases List.mem_cons.1 ho with rfl | ho
      · have hf : registry.fromFh.lookup handle = some (File.construct handle r.uf) := by
          rw [hlookup, if_pos rfl]
        exact Registry.fromFh_alive hf
      · have halive := (hI.alive o.handle).2 ⟨o, ho, rfl⟩
        rw [hregistry]
        exact halive.registerFile (Registry.inv_of_reachable hI.registry) hfresh hfd
  · intro fh f hf
    rw [hlookup] at hf
    split at hf
    · cases hf
      exact ⟨_, List.mem_cons_self, ⟨rfl, rfl, rfl, rfl⟩⟩
    · obtain ⟨o, ho, hd⟩ := hI.files fh f hf
      exact ⟨o, List.mem_cons_of_mem _ ho, hd⟩
  · refine hI.accounted.perm ?_
    rw [owners_eq, owners_eq, registrationOwners_insert, movedFrom_owned, objectOwners_cons,
      List.nil_append, List.append_assoc]
    refine ((registrationOwners_perm hr).append_left _).trans ?_
    exact List.perm_append_comm_assoc ..
  · intro o ho
    rcases List.mem_cons.1 ho with rfl | ho
    · exact hI.registrations t r hr htried
    · exact hI.objects o ho
  · intro t' r' hr' htried'
    rcases Table.lookup_insert_cases hr' with ⟨rfl, rfl⟩ | ⟨-, hr'⟩
    · cases htried'
    · exact hI.registrations t' r' hr' htried'

theorem Inv.leave (hI : Inv d) {t : ℕ} {r : Registration}
    (hr : d.registrations.lookup t = some r) :
    Inv { d with
      os := r.uf.members.destroy d.os
      registrations := d.registrations.erase t } := by
  have hacc := hI.accounted.perm (d.owners_leave hr)
  rw [FileMembers.destroy_eq _ r.serial]
  have hos : ∀ kn ∈ objectOwners d.objects ++ registrationOwners (d.registrations.erase t),
      (d.os.closeAll ((r.uf.members.owned r.serial).map Prod.fst)).entries kn.1 =
        d.os.entries kn.1 :=
    fun kn hkn => HandleTable.closeAll_entries _ (hacc.notMem_closed hkn)
  refine ⟨hI.registry, hI.handles, hI.alive, hI.files, hacc.closeAll, ?_, ?_⟩
  · exact hI.objects_frame (List.Subset.refl _) fun kn hkn => hos kn (List.mem_append_left _ hkn)
  · intro t' r' hr' htried
    have hbefore := (Table.lookup_erase_some hr').2
    exact hI.registrations_frame hbefore hr'
      (fun kn hkn => hos kn (List.mem_append_right _ hkn)) htried

/-- The objects that are not alive after a step of the registry are destroyed. -/
theorem Inv.enter (hI : Inv d) {l : Registry.Step} {registry : Registry}
    (hl : ∀ uf handle, l ≠ .registerFile uf handle)
    (hstep : Registry.machine.step d.registry l = some registry) : Inv (d.enter registry) := by
  have hacc := hI.accounted.perm (d.owners_enter registry)
  have hos : ∀ kn ∈ objectOwners (d.objects.filter fun f => registry.Alive (.file f.handle)) ++
      registrationOwners d.registrations,
      (d.os.closeAll ((objectOwners (d.objects.filter fun f =>
        ¬ registry.Alive (.file f.handle))).map Prod.fst)).entries kn.1 = d.os.entries kn.1 :=
    fun kn hkn => HandleTable.closeAll_entries _ (hacc.notMem_closed hkn)
  have hsub : (d.objects.filter fun f => registry.Alive (.file f.handle)) ⊆ d.objects :=
    List.filter_subset_self _
  have hkept : ∀ fh, registry.Alive (.file fh) →
      ∃ o ∈ d.objects.filter fun f => registry.Alive (.file f.handle), o.handle = fh := by
    intro fh halive
    rcases Registry.alive_of_step hstep halive with h | ⟨uf, huf⟩
    · obtain ⟨o, ho, rfl⟩ := (hI.alive fh).1 h
      exact ⟨o, List.mem_filter.2 ⟨ho, by simpa using halive⟩, rfl⟩
    · exact absurd huf (hl uf fh)
  unfold Descriptors.enter
  rw [destroyDead_eq]
  refine ⟨.step l hI.registry trivial hstep, ?_, ?_, ?_, hacc.closeAll, ?_, ?_⟩
  · exact hI.handles.sublist (List.filter_sublist.map _)
  · intro fh
    refine ⟨hkept fh, ?_⟩
    rintro ⟨o, ho, rfl⟩
    simpa using (List.mem_filter.1 ho).2
  · intro fh f hf
    rcases Registry.fromFh_of_step hstep hf with h | ⟨uf, handle, huf⟩
    · obtain ⟨o, ho, hd⟩ := hI.files fh f h
      have halive : registry.Alive (.file o.handle) := hd.handle ▸ Registry.fromFh_alive hf
      exact ⟨o, List.mem_filter.2 ⟨ho, by simpa using halive⟩, hd⟩
    · exact absurd huf (hl uf handle)
  · exact hI.objects_frame hsub fun kn hkn => hos kn (List.mem_append_left _ hkn)
  · intro t r hr htried
    exact hI.registrations_frame hr hr (fun kn hkn => hos kn (List.mem_append_right _ hkn)) htried

/-! ## The steps -/

/-- What the steps do. -/
inductive Moves (d : Descriptors) : Step → Descriptors → Prop
  | throws {t : ℕ} {calls : FileCalls} {fd : ℤ} : Moves d (.construct t calls fd) d
  | construct {t : ℕ} {calls : FileCalls} {fd : ℤ} {uf : UnregisteredFile} {os : FdTable}
      (hnone : d.registrations.lookup t = none) (hanswers : Answers d.os calls fd = true)
      (hb : UnregisteredFile.build calls fd d.os = (.ok uf, os)) :
    Moves d (.construct t calls fd) { d with
      os := os
      registrations := d.registrations.insert t ⟨uf, d.os.nextSerial, false⟩ }
  | refused {t handle : ℕ} {r : Registration} {n : ℤ}
      (hr : d.registrations.lookup t = some r)
      (hstep : Registry.machine.step d.registry (.registerFile r.uf handle) =
        some { d.registry with refCount := n }) :
    Moves d (.register t handle) { d with
      registry := { d.registry with refCount := n }
      registrations := d.registrations.insert t { r with tried := true } }
  | register {t handle : ℕ} {r : Registration} {n : ℤ} {registry : Registry}
      (hr : d.registrations.lookup t = some r) (htried : r.tried = false)
      (hfresh : ¬ d.registry.Alive (.file handle))
      (hfd : d.registry.fromFd.lookup r.uf.clientFd.fd = none)
      (hregistry : registry = { d.registry with
        refCount := n
        fromFd := d.registry.fromFd.insert r.uf.clientFd.fd (File.construct handle r.uf)
        fromFh := d.registry.fromFh.insert handle (File.construct handle r.uf) })
      (hstep : Registry.machine.step d.registry (.registerFile r.uf handle) = some registry) :
    Moves d (.register t handle) { d with
      registry := registry
      objects := ⟨handle, r.uf.members, r.uf.flags, r.serial⟩ :: d.objects
      registrations := d.registrations.insert t { r with uf := r.uf.movedFrom, tried := true } }
  | leave {t : ℕ} {r : Registration} (hr : d.registrations.lookup t = some r) :
    Moves d (.leave t) { d with
      os := r.uf.members.destroy d.os
      registrations := d.registrations.erase t }
  | registry {l : Registry.Step} {registry : Registry}
      (hl : ∀ uf handle, l ≠ .registerFile uf handle)
      (hstep : Registry.machine.step d.registry l = some registry) :
    Moves d (.registry l) (d.enter registry)
  | clientOpen {fd : ℤ} {flags : ℕ} (hfree : d.os.entries fd = none) :
    Moves d (.clientOpen fd flags) { d with os := d.os.openForeign fd flags }
  | clientClose {fd : ℤ} {flags : ℕ} (hentry : d.os.entries fd = some ⟨.foreign, flags⟩) :
    Moves d (.clientClose fd) { d with os := d.os.closeForeign fd }

theorem step_moves {l : Step} (h : machine.step d l = some d') : Moves d l d' := by
  cases l with
  | construct t calls fd =>
    simp only [machine, Descriptors.step, Option.ite_none_right_eq_some] at h
    obtain ⟨⟨hnone, hanswers⟩, h⟩ := h
    rcases UnregisteredFile.build_cases calls fd d.os with ⟨e, hb⟩ | ⟨uf, -, hb⟩
    · rw [hb] at h
      exact Option.some.inj h ▸ .throws
    · have hok : ∃ os, UnregisteredFile.build calls fd d.os = (.ok uf, os) := by
        rcases hb with ⟨hb, -⟩ | ⟨n, -, hb, -⟩
        · exact ⟨_, hb⟩
        · exact ⟨_, hb⟩
      obtain ⟨os, hok⟩ := hok
      rw [hok] at h
      exact Option.some.inj h ▸ .construct (by simpa using hnone) hanswers hok
  | register t handle =>
    simp only [machine, Descriptors.step] at h
    cases hr : d.registrations.lookup t with
    | none => rw [hr] at h; cases h
    | some r =>
      rw [hr] at h
      simp only [Option.ite_none_left_eq_some, not_or] at h
      obtain ⟨⟨htried, hfresh⟩, h⟩ := h
      have hstep : Registry.machine.step d.registry (.registerFile r.uf handle) =
          some (d.registry.registerFile r.uf handle).2 := if_neg hfresh
      obtain ⟨n, hcase | ⟨hfd, hcase⟩⟩ := Registry.registerFile_cases r.uf handle d.registry
      · rw [hcase] at h hstep
        exact Option.some.inj h ▸ .refused hr hstep
      · rw [hcase] at h hstep
        exact Option.some.inj h ▸ .register hr (by simpa using htried) hfresh hfd rfl hstep
  | leave t =>
    simp only [machine, Descriptors.step] at h
    cases hr : d.registrations.lookup t with
    | none => rw [hr] at h; cases h
    | some r =>
      rw [hr] at h
      simp only [Option.ite_none_right_eq_some, Option.some.injEq] at h
      exact h.2 ▸ .leave hr
  | registry l =>
    simp only [machine, Descriptors.step] at h
    split at h
    · cases h
    · rename_i hne
      obtain ⟨registry, hstep, rfl⟩ := Option.map_eq_some_iff.1 h
      exact .registry hne hstep
  | clientOpen fd flags =>
    simp only [machine, Descriptors.step, Option.ite_none_right_eq_some, Option.some.injEq] at h
    exact h.2 ▸ .clientOpen h.1.2
  | clientClose fd =>
    simp only [machine, Descriptors.step, Option.ite_none_right_eq_some, Option.some.injEq] at h
    obtain ⟨hforeign, rfl⟩ := h
    obtain ⟨⟨owner, flags⟩, hentry, howner⟩ := (Option.any_eq_true _ _).1 hforeign
    obtain rfl : owner = .foreign := by simpa using howner
    exact .clientClose hentry

theorem Inv.step (hI : Inv d) {l : Step} (h : Moves d l d') : Inv d' := by
  cases h with
  | throws => exact hI
  | construct hnone hanswers hb => exact hI.construct hnone hanswers hb
  | refused hr hstep => exact hI.register_error hr (.step _ hI.registry trivial hstep)
  | register hr htried hfresh hfd hregistry hstep =>
    exact hI.register_ok hr htried hfresh hfd hregistry hstep
  | leave hr => exact hI.leave hr
  | registry hl hstep => exact hI.enter hl hstep
  | @clientOpen fd flags hfree =>
    refine hI.foreign (hI.accounted.openForeign hfree flags) ?_
    rintro ⟨k, n⟩ hkn
    have hne : k ≠ fd := by
      rintro rfl
      exact hI.accounted.notMem (Or.inl hfree) hkn
    exact Function.update_of_ne hne _ _
  | @clientClose fd flags hentry =>
    refine hI.foreign (hI.accounted.closeForeign hentry) ?_
    rintro ⟨k, n⟩ hkn
    have hne : k ≠ fd := by
      rintro rfl
      exact hI.accounted.notMem (Or.inr ⟨flags, hentry⟩) hkn
    exact Function.update_of_ne hne _ _

theorem inv_of_reachable (hd : machine.Reachable d) : Inv d :=
  hd.invariant Inv.init fun _ _ _ hI _ hst => hI.step (step_moves hst)

/-! ## The client's descriptors -/

/-- **No step of the library touches a descriptor of the client.** -/
theorem foreign_stays (hI : Inv d) {l : Step} (h : Moves d l d') {fd : ℤ} {flags : ℕ}
    (hfd : d.os.entries fd = some ⟨.foreign, flags⟩) :
    d'.os.entries fd = some ⟨.foreign, flags⟩ ∨ l = .clientClose fd := by
  have hfree : ∀ {k}, d.os.entries k = none → fd ≠ k := by
    rintro k hk rfl
    rw [hk] at hfd
    cases hfd
  cases h with
  | construct hnone hanswers hb =>
    obtain ⟨-, -, -, ⟨rfl, -⟩ | ⟨n, flags', hn, rfl, -⟩⟩ := build_split hanswers hb
    · exact Or.inl hfd
    · exact Or.inl ((Function.update_of_ne (hfree hn) _ _).trans hfd)
  | leave hr =>
    have hacc := hI.accounted.perm (d.owners_leave hr)
    have hos := HandleTable.closeAll_entries d.os (hacc.foreign_notMem hfd)
    rw [← FileMembers.destroy_eq] at hos
    exact Or.inl (hos.trans hfd)
  | @registry l registry hl hstep =>
    have hacc := hI.accounted.perm (d.owners_enter registry)
    have hos := HandleTable.closeAll_entries d.os (hacc.foreign_notMem hfd)
    left
    unfold Descriptors.enter
    rw [destroyDead_eq]
    exact hos.trans hfd
  | clientOpen hn => exact Or.inl ((Function.update_of_ne (hfree hn) _ _).trans hfd)
  | @clientClose fd' flags' hentry =>
    by_cases hne : fd = fd'
    · exact Or.inr (by rw [hne])
    · exact Or.inl ((Function.update_of_ne hne _ _).trans hfd)
  | _ => exact Or.inl hfd

/-- The client has given the descriptor for a file that is registered, or being so. -/
def InUse (d : Descriptors) (fd : ℤ) : Prop :=
  (∃ o ∈ d.objects, o.members.clientFd.fd = fd) ∨
    ∃ t r, d.registrations.lookup t = some r ∧ r.tried = false ∧ r.uf.clientFd.fd = fd

/-- The client registers descriptors of its own, and closes none of them in use. -/
def ClientKeeps (d : Descriptors) : Step → Prop
  | .construct _ _ fd => ∀ n flags, d.os.entries fd ≠ some ⟨.own n, flags⟩
  | .clientClose fd => ¬ d.InUse fd
  | _ => True

/-- The client's descriptors in use are open, with the flags that the constructor read. -/
structure Kept (d : Descriptors) : Prop where
  objects : ∀ o ∈ d.objects, d.os.entries o.members.clientFd.fd = some ⟨.foreign, o.flags⟩
  registrations : ∀ t r, d.registrations.lookup t = some r → r.tried = false →
    d.os.entries r.uf.clientFd.fd = some ⟨.foreign, r.uf.flags⟩

theorem Kept.init : Kept Descriptors.init where
  objects _ := nofun
  registrations _ _ hr := absurd hr Table.lookup_empty_ne

theorem Kept.step (hK : Kept d) (hI : Inv d) {l : Step} (hl : ClientKeeps d l)
    (h : Moves d l d') : Kept d' := by
  have hobjects : ∀ o ∈ d.objects,
      d'.os.entries o.members.clientFd.fd = some ⟨.foreign, o.flags⟩ := by
    intro o ho
    rcases foreign_stays hI h (hK.objects o ho) with hfd | rfl
    · exact hfd
    · exact absurd (Or.inl ⟨o, ho, rfl⟩) hl
  have hregistrations : ∀ t r, d.registrations.lookup t = some r → r.tried = false →
      d'.os.entries r.uf.clientFd.fd = some ⟨.foreign, r.uf.flags⟩ := by
    intro t r hr htried
    rcases foreign_stays hI h (hK.registrations t r hr htried) with hfd | rfl
    · exact hfd
    · exact absurd (Or.inr ⟨t, r, hr, htried, rfl⟩) hl
  cases h with
  | throws => exact hK
  | @construct t calls fd uf os hnone hanswers hb =>
    refine ⟨hobjects, ?_⟩
    intro t' r' hr' htried
    rcases Table.lookup_insert_cases hr' with ⟨rfl, rfl⟩ | ⟨-, hr'⟩
    · obtain ⟨hflags, hclient, -, hopened⟩ := build_split hanswers hb
      obtain ⟨⟨owner, flags⟩, hentry, hdata⟩ := Option.map_eq_some_iff.1 hflags
      obtain rfl : flags = uf.flags := hdata
      have hforeign : d.os.entries fd = some ⟨.foreign, uf.flags⟩ := by
        cases owner with
        | foreign => exact hentry
        | own n => exact absurd hentry (hl n _)
      -- what the constructor has opened is not the client's descriptor
      show os.entries uf.clientFd.fd = _
      rw [hclient]
      rcases foreign_stays hI (.construct hnone hanswers hb) hforeign with hfd | hfd
      · exact hfd
      · cases hfd
    · exact hregistrations t' r' hr' htried
  | refused hr hstep =>
    refine ⟨hobjects, ?_⟩
    intro t' r' hr' htried
    rcases Table.lookup_insert_cases hr' with ⟨rfl, rfl⟩ | ⟨-, hr'⟩
    · cases htried
    · exact hregistrations t' r' hr' htried
  | register hr htried hfresh hfd hregistry hstep =>
    refine ⟨?_, ?_⟩
    · intro o ho
      rcases List.mem_cons.1 ho with rfl | ho
      · exact hregistrations _ _ hr htried
      · exact hobjects o ho
    · intro t' r' hr' htried'
      rcases Table.lookup_insert_cases hr' with ⟨rfl, rfl⟩ | ⟨-, hr'⟩
      · cases htried'
      · exact hregistrations t' r' hr' htried'
  | leave hr =>
    refine ⟨hobjects, ?_⟩
    intro t' r' hr' htried
    exact hregistrations t' r' (Table.lookup_erase_some hr').2 htried
  | registry hl' hstep =>
    refine ⟨?_, hregistrations⟩
    intro o ho
    refine hobjects o ?_
    simp only [Descriptors.enter, destroyDead_eq] at ho
    exact List.mem_of_mem_filter ho
  | clientOpen hfree => exact ⟨hobjects, hregistrations⟩
  | clientClose hentry => exact ⟨hobjects, hregistrations⟩

theorem kept_of_reaches (hd : machine.Reaches ClientKeeps d) : Inv d ∧ Kept d := by
  refine hd.invariant (I := fun d => Inv d ∧ Kept d) ⟨Inv.init, Kept.init⟩ ?_
  intro s l s' hIK hl hst
  exact ⟨hIK.1.step (step_moves hst), hIK.2.step hIK.1 hl (step_moves hst)⟩

/-- The flags of the client's descriptors and of the library's, as they are. -/
theorem HasFlags.entry {os : FdTable} {m : FileMembers} {flags serial : ℕ} {x : FileDescriptor}
    {P : ℕ → Prop} (h : HasFlags os m flags serial x P)
    (hclient : os.entries m.clientFd.fd = some ⟨.foreign, flags⟩) :
    ∃ e, os.entries x.fd = some e ∧ P e.data := by
  rcases h with ⟨rfl, hP⟩ | ⟨-, f, hf, hP⟩
  · exact ⟨_, hclient, hP⟩
  · exact ⟨_, hf, hP⟩

/-- **Descriptor ownership**, in every run: the library's closes have closed descriptors of
its own, each once; those of a `File` that is referenced are open; one that no
`UnregisteredFile` and no `File` owns has been closed; and the descriptors of a `File` are
split by `O_DIRECT`, also as the client has them if it keeps its own open. -/
theorem descriptors_owned (d : Descriptors) (hd : machine.Reachable d) :
    (∀ c ∈ d.os.closes, ∃ n flags, c = some ⟨.own n, flags⟩) ∧
    d.os.closedSerials.Nodup ∧
    (∀ fh, d.registry.Alive (.file fh) → ∃ o ∈ d.objects, o.handle = fh ∧
      (∀ f, d.registry.fromFh.lookup fh = some f → Describes o f) ∧
      ∀ x ∈ o.members.descriptors, x.Owns →
        (∃ flags, d.os.entries x.fd = some ⟨.own o.serial, flags⟩) ∧
          o.serial ∉ d.os.closedSerials) ∧
    (∀ fd n flags, d.os.entries fd = some ⟨.own n, flags⟩ → (fd, n) ∈ d.owners) ∧
    (∀ n < d.os.nextSerial, (∀ fd, (fd, n) ∉ d.owners) → n ∈ d.os.closedSerials) ∧
    (∀ o ∈ d.objects, d.registry.Alive (.file o.handle) ∧
      Split d.os o.members o.flags o.serial) ∧
    (machine.Reaches ClientKeeps d → ∀ o ∈ d.objects,
      (∃ e, d.os.entries o.members.bufferedFd.fd = some e ∧ e.data &&& O_DIRECT = 0) ∧
      ∀ u ∈ o.members.unbufferedFd,
        ∃ e, d.os.entries u.fd = some e ∧ e.data &&& O_DIRECT ≠ 0) := by
  have hI := inv_of_reachable hd
  have hA := hI.accounted
  refine ⟨hA.closes, hA.closed_nodup, ?_, ?_, ?_, ?_, ?_⟩
  · intro fh halive
    obtain ⟨o, ho, rfl⟩ := (hI.alive fh).1 halive
    refine ⟨o, ho, rfl, ?_, ?_⟩
    · intro f hf
      obtain ⟨o', ho', hdesc⟩ := hI.files _ f hf
      -- two objects with one handle are one
      have hkey := ((Registry.inv_of_reachable hI.registry).fh _ f hf).1
      have heq : o'.handle = o.handle := hdesc.handle.symm.trans hkey.symm
      rw [List.inj_on_of_nodup_map hI.handles ho' ho heq] at hdesc
      exact hdesc
    · intro x hx howns
      have hmem : (x.fd, o.serial) ∈ d.owners := by
        have howned : (x.fd, o.serial) ∈ o.members.owned o.serial :=
          FileMembers.mem_owned.2 ⟨rfl, x, hx, howns, rfl⟩
        exact List.mem_append_left _ (mem_objectOwners ho howned)
      exact ⟨(hA.owned _ _).1 hmem, hA.disjoint _ _ hmem⟩
  · intro fd n flags hentry
    exact (hA.owned fd n).2 ⟨flags, hentry⟩
  · intro n hn hnone
    rcases hA.opened n hn with hcl | ⟨fd, hfd⟩
    · exact hcl
    · exact absurd hfd (hnone fd)
  · intro o ho
    exact ⟨(hI.alive _).2 ⟨o, ho, rfl⟩, hI.objects o ho⟩
  · intro hkeeps o ho
    obtain ⟨-, hK⟩ := kept_of_reaches hkeeps
    have hclient := hK.objects o ho
    have hsplit := hI.objects o ho
    exact ⟨hsplit.buffered.entry hclient, fun u hu => (hsplit.unbuffered u hu).entry hclient⟩

/-- The answers for a file with flags `O_RDWR`, which is opened again as `n`. -/
def plainCalls (n : ℤ) : FileCalls := ⟨.ok ⟨0, 0, 0, 0⟩, .ok 2, .ok none, fun _ => .ok n⟩

/-- A file is registered twice, the second time in vain; then the driver is closed while a
thread reads from the file. -/
def closedInUse : List Step :=
  [.clientOpen 3 2, .construct 0 (plainCalls 4) 3, .register 0 64, .leave 0,
    .construct 1 (plainCalls 5) 3, .register 1 72, .leave 1,
    .registry (.lookup 0 oneAllocation 64 0x10000 128), .registry .decrRefCount]

theorem descriptors_owned_closedInUse :
    ∃ d, machine.run machine.init closedInUse = some d ∧ d.os.closedSerials.Nodup ∧
      d.os.closedSerials = [1] ∧ d.owners = [(4, 0)] ∧
      ∃ o ∈ d.objects, o.handle = 64 ∧ ∃ flags, d.os.entries 4 = some ⟨.own 0, flags⟩ := by
  have hrun : machine.run machine.init closedInUse =
      some ((machine.run machine.init closedInUse).getD init) := by rfl
  have h := descriptors_owned _ (Machine.reachable_of_run hrun)
  have halive : ((machine.run machine.init closedInUse).getD init).registry.Alive (.file 64) := by
    decide
  obtain ⟨o, ho, hhandle, -⟩ := h.2.2.1 64 halive
  exact ⟨_, hrun, h.2.1, by decide, by decide, o, ho, hhandle, _, rfl⟩

end Descriptors

end HipFile
