import HipFile.Proof.Descriptors

/-!
# What a close of the driver releases

`decrRefCount` clears the maps of files and buffers at the count 0, and leaves the batch
contexts, whose operations hold references.

* `close_released_iff`: the close that reaches 0 has released everything exactly if no batch
  context was set up in the run, and no IO holds a reference.
* `not_released_batch`: a run in which a batch operation keeps a file open.
-/

namespace HipFile

namespace Registry

variable {s s' : Registry} {l : Step}

/-- `BatchContextMap::get` finds a context under the handle. -/
def Resolves (s : Registry) (handle : ℕ) : Prop := (s.contexts.lookup handle).isSome = true

instance (s : Registry) (handle : ℕ) : Decidable (s.Resolves handle) :=
  inferInstanceAs (Decidable (_ = true))

/-- A handle resolves after a step that it resolved before, or that creates its context. -/
theorem resolves_of_step (h : machine.step s l = some s') (handle : ℕ) :
    s'.Resolves handle ↔ s.Resolves handle ∨
      ∃ capacity ctx, l = .createContext capacity handle ∧
        BatchContext.construct capacity = .ok ctx := by
  by_cases hl : ∃ capacity handle', l = .createContext capacity handle'
  · obtain ⟨capacity, handle', rfl⟩ := hl
    rcases createContext_cases h with ⟨rfl, e, he⟩ | ⟨ctx, hctx, hnone, rfl⟩
    · constructor
      · exact Or.inl
      · rintro (hres | ⟨_, ctx, heq, hok⟩)
        · exact hres
        · cases heq
          rw [he] at hok
          cases hok
    · simp only [Resolves, Table.lookup_insert_eq]
      by_cases heq : handle = handle'
      · rw [if_pos heq, heq]
        exact ⟨fun _ => Or.inr ⟨capacity, ctx, rfl, hctx⟩, fun _ => rfl⟩
      · rw [if_neg heq]
        constructor
        · exact Or.inl
        · rintro (hres | ⟨_, _, hcreate, -⟩)
          · exact hres
          · cases hcreate
            exact absurd rfl heq
  · have hkeep : s'.Resolves handle ↔ s.Resolves handle := by
      cases step_moves h with
      | createContext hctx hnew => exact absurd ⟨_, _, rfl⟩ hl
      | @acceptOperations t context ops ctx hctx hok =>
        simp only [Resolves, Table.lookup_insert_eq]
        by_cases heq : handle = context
        · rw [if_pos heq, heq, hctx]
          exact iff_of_true rfl rfl
        · rw [if_neg heq]
      | _ => exact Iff.rfl
    rw [hkeep]
    constructor
    · exact Or.inl
    · rintro (hres | ⟨capacity, _, hcreate, -⟩)
      · exact hres
      · exact absurd ⟨capacity, handle, hcreate⟩ hl

/-- What a close leaves that reaches the count 0. -/
theorem close_spec (h : machine.step s .decrRefCount = some s') (h0 : s'.refCount = 0) :
    s' = { s with refCount := 0, fromFd := ∅, fromFh := ∅, fromPtr := ∅ } := by
  simp only [machine, step, Option.some.injEq, decrRefCount_snd] at h
  obtain ⟨n, hn⟩ : ∃ n, dropRef s = { s with refCount := n } := by
    unfold dropRef
    split
    · exact ⟨_, rfl⟩
    · exact ⟨s.refCount, rfl⟩
  rw [hn, clearAtZero] at h
  split at h
  · rename_i hzero
    obtain rfl : n = 0 := hzero
    exact h.symm
  · rename_i hzero
    subst h
    exact absurd h0 hzero

/-- Where no handle resolves, no batch operation holds references. -/
theorem batchRefs_eq_nil (h : ∀ handle, ¬ s.Resolves handle) : s.batchRefs = [] := by
  unfold batchRefs
  rw [List.flatMap_eq_nil_iff]
  intro ctx hctx
  obtain ⟨handle, hlookup⟩ := Table.mem_values.1 hctx
  exact absurd (by rw [Resolves, hlookup]; rfl) (h handle)

end Registry

namespace Descriptors

variable {d d' : Descriptors}

/-- No call of `hipFileBatchIOSetUp` that `BatchContext` accepts. -/
def NoSetUp (_ : Descriptors) (l : Step) : Prop :=
  ∀ capacity handle, l = .registry (.createContext capacity handle) →
    capacity = 0 ∨ BatchContext.MAX_SIZE < capacity

/-- No object is alive, no handle of a batch context resolves, and the library has no
descriptors open but for the registrations in progress. -/
structure Released (d : Descriptors) : Prop where
  objects : ∀ o, ¬ d.registry.Alive o
  contexts : ∀ handle, ¬ d.registry.Resolves handle
  descriptors : ∀ fd n flags, d.os.entries fd = some ⟨.own n, flags⟩ →
    ∃ t r, d.registrations.lookup t = some r ∧ (fd, n) ∈ r.uf.members.owned r.serial

theorem construct_error_iff (capacity : ℕ) :
    (∀ ctx, BatchContext.construct capacity ≠ .ok ctx) ↔
      capacity = 0 ∨ BatchContext.MAX_SIZE < capacity := by
  constructor
  · intro h
    by_contra hcap
    rw [not_or] at hcap
    refine h ⟨capacity, []⟩ ?_
    rw [BatchContext.construct, if_neg hcap.1, if_neg hcap.2]
  · intro hcap ctx hctx
    obtain ⟨hpos, hle, -⟩ := BatchContext.construct_ok hctx
    omega

theorem registry_of_moves {l : Registry.Step} (h : Moves d (.registry l) d') :
    Registry.machine.step d.registry l = some d'.registry := by
  cases h with
  | registry hl hstep => exact hstep

/-- The handles that resolve after a step. -/
theorem resolves_of_moves {l : Step} (h : Moves d l d') (handle : ℕ) :
    d'.registry.Resolves handle ↔ d.registry.Resolves handle ∨
      ∃ capacity ctx, l = .registry (.createContext capacity handle) ∧
        BatchContext.construct capacity = .ok ctx := by
  have hother : (∀ l', l ≠ .registry l') → d'.registry.contexts = d.registry.contexts →
      (d'.registry.Resolves handle ↔ d.registry.Resolves handle ∨
        ∃ capacity ctx, l = .registry (.createContext capacity handle) ∧
          BatchContext.construct capacity = .ok ctx) := by
    intro hl hctx
    have hkeep : d'.registry.Resolves handle ↔ d.registry.Resolves handle := by
      rw [Registry.Resolves, Registry.Resolves, hctx]
    rw [hkeep]
    constructor
    · exact Or.inl
    · rintro (hres | ⟨capacity, ctx, hcreate, -⟩)
      · exact hres
      · exact absurd hcreate (hl _)
  cases h with
  | registry hl hstep =>
    have hres := Registry.resolves_of_step hstep handle
    simp only [Step.registry.injEq]
    exact hres
  | register hr htried hfresh hfd hregistry hstep =>
    exact hother (fun _ => nofun) (by rw [hregistry])
  | _ => exact hother (fun _ => nofun) rfl

/-- **A handle resolves at the end of a run exactly if a set-up has succeeded in it.** -/
theorem noSetUp_iff {ls : List Step} (hrun : machine.run machine.init ls = some d) :
    (∀ handle, ¬ d.registry.Resolves handle) ↔ machine.RunMeets NoSetUp machine.init ls := by
  refine Machine.runMeets_iff (I := fun _ => True)
    (P := fun d => ∀ handle, ¬ d.registry.Resolves handle)
    (Q := fun d => ∃ handle, d.registry.Resolves handle) ?_ ?_ ?_ ?_ ?_ trivial ?_ hrun
  · intro s l s' _ _
    trivial
  · intro s l s' _ hP hG hst handle hres
    rcases (resolves_of_moves (step_moves hst) handle).1 hres with h | ⟨capacity, ctx, rfl, hctx⟩
    · exact hP handle h
    · exact (construct_error_iff capacity).2 (hG capacity handle rfl) ctx hctx
  · intro s l s' _ _ hG hst
    simp only [NoSetUp, not_forall] at hG
    obtain ⟨capacity, handle, rfl, hcap⟩ := hG
    rw [← construct_error_iff] at hcap
    simp only [not_forall, not_not] at hcap
    obtain ⟨ctx, hctx⟩ := hcap
    exact ⟨handle, (resolves_of_moves (step_moves hst) handle).2
      (Or.inr ⟨capacity, ctx, rfl, hctx⟩)⟩
  · rintro s l s' _ ⟨handle, hres⟩ hst
    exact ⟨handle, (resolves_of_moves (step_moves hst) handle).2 (Or.inl hres)⟩
  · rintro s ⟨handle, hres⟩ hP
    exact hP handle hres
  · intro handle
    exact nofun

/-- **What a close releases**, in every run that it ends at the count 0: everything, exactly
if no batch context was set up in the run and no IO holds a reference. -/
theorem close_released_iff (ls : List Step) (d d' : Descriptors)
    (hrun : machine.run machine.init ls = some d)
    (hclose : machine.step d (.registry .decrRefCount) = some d')
    (h0 : d'.registry.refCount = 0) :
    Released d' ↔ machine.RunMeets NoSetUp machine.init ls ∧ d.registry.outside = [] := by
  have hreach : machine.Reachable d' :=
    .step _ (Machine.reachable_of_run hrun) trivial hclose
  have hI := inv_of_reachable hreach
  have hstep := registry_of_moves (step_moves hclose)
  have hspec := Registry.close_spec hstep h0
  have hrefs : d'.registry.refs = d.registry.outside.map Prod.snd ++ d.registry.batchRefs := by
    rw [hspec]
    rfl
  have hcontexts : ∀ handle, d'.registry.Resolves handle ↔ d.registry.Resolves handle := by
    intro handle
    rw [hspec]
    exact Iff.rfl
  rw [← noSetUp_iff hrun]
  constructor
  · intro hR
    refine ⟨fun handle hres => hR.contexts handle ((hcontexts handle).2 hres), ?_⟩
    -- whatever is held outside of the tables is alive
    refine List.eq_nil_iff_forall_not_mem.2 fun r hr => hR.objects r.2 ?_
    rw [Registry.Alive, hrefs]
    exact List.mem_append_left _ (List.mem_map_of_mem hr)
  · rintro ⟨hnone, hio⟩
    have hdead : ∀ o, ¬ d'.registry.Alive o := by
      intro o
      rw [Registry.Alive, hrefs, hio, Registry.batchRefs_eq_nil hnone]
      exact List.not_mem_nil
    refine ⟨hdead, fun handle hres => hnone handle ((hcontexts handle).1 hres), ?_⟩
    intro fd n flags hentry
    have howned := (hI.accounted.owned fd n).2 ⟨flags, hentry⟩
    rcases List.mem_append.1 howned with hobject | hregistration
    · obtain ⟨o, ho, -⟩ := List.mem_flatMap.1 hobject
      exact absurd ((hI.alive o.handle).2 ⟨o, ho, rfl⟩) (hdead _)
    · obtain ⟨r, hr, hmem⟩ := List.mem_flatMap.1 hregistration
      obtain ⟨t, ht⟩ := Table.mem_values.1 hr
      exact ⟨t, r, ht, hmem⟩

/-- A file is registered and read from; nothing else is in use when the driver is closed. -/
def readOnce : List Step :=
  [.clientOpen 3 2, .construct 0 (plainCalls 4) 3, .register 0 64, .leave 0,
    .registry (.lookup 0 oneAllocation 64 0x10000 128),
    .registry (.drop (.thread 0, .file 64)), .registry (.drop (.thread 0, .buffer 128))]

theorem close_released_iff_readOnce : ∃ d d', machine.run machine.init readOnce = some d ∧
    machine.step d (.registry .decrRefCount) = some d' ∧ Released d' ∧
      d'.os.closedSerials = [0] := by
  have hrun : machine.run machine.init readOnce =
      some ((machine.run machine.init readOnce).getD init) := by rfl
  have hmeets : machine.RunMeets NoSetUp machine.init readOnce := by
    refine ⟨?_, ?_, ?_, ?_, ?_, ?_, ?_, trivial⟩
    all_goals exact fun _ _ => nofun
  refine ⟨_, _, hrun, rfl, ?_, by decide⟩
  exact (close_released_iff readOnce _ _ hrun rfl (by decide)).2 ⟨hmeets, by decide⟩

/-- The file of `plainCalls`, and a batch read of 512 bytes from it. -/
def batchedFile : IFile := ⟨64, 3, 3, some 4, 4096, 4096, false, false, false, false⟩

def batchedRead : BatchOperation :=
  ⟨1000, ⟨.batch, 0x10000, 0, 0, 512, 64, .batchRead, 0⟩,
    ⟨128, ⟨0x10000, 8192, 0, .device, 0⟩⟩, batchedFile⟩

/-- A file is registered and a batch read from it submitted. -/
def batchSubmitted : List Step :=
  [.clientOpen 3 2, .construct 0 (plainCalls 4) 3, .register 0 64, .leave 0,
    .registry (.createContext 4 200), .registry (.lookup 0 oneAllocation 64 0x10000 128),
    .registry (.acceptOperations 0 200 [batchedRead])]

/-- No IO is in progress when the driver is closed, but the file stays alive with the
descriptor that the library has opened, and the handle of the context resolves. -/
theorem not_released_batch : ∃ d d', machine.run machine.init batchSubmitted = some d ∧
    machine.step d (.registry .decrRefCount) = some d' ∧ d'.registry.refCount = 0 ∧
    d.registry.outside = [] ∧ ¬ Released d' ∧ d'.registry.Alive (.file 64) ∧
      (∃ flags, d'.os.entries 4 = some ⟨.own 0, flags⟩) ∧ d'.registry.Resolves 200 := by
  have hrun : machine.run machine.init batchSubmitted =
      some ((machine.run machine.init batchSubmitted).getD init) := by rfl
  refine ⟨_, _, hrun, rfl, by decide, by decide, ?_, by decide, ⟨_, rfl⟩, by decide⟩
  intro hR
  exact hR.objects (.file 64) (by decide)

end Descriptors

end HipFile
