import Mathlib.Data.List.Forall2
import HipFile.Model.Batch

/-!
# Batch submissions

* `BatchOperation.construct_eq_ok_iff`: the operations that are accepted.
* `BatchContext.submitOperations_spec`: a submission is made as a whole or not at all.
* `BatchContext.submit_allOrNothing`: so it is in every run of a context, within its
  capacity.
-/

namespace HipFile

/-- **The accepted operations**: those that name the buffer and the file given with
them, lie in the region that `paramsValid` accepts, and are batch reads or writes. -/
theorem BatchOperation.construct_eq_ok_iff {address : ℕ} {params : HipFileIOParams}
    {buffer : SharedBuffer} {file : IFile} {op : BatchOperation} :
    construct address params buffer file = .ok op ↔
      op = ⟨address, params, buffer, file⟩ ∧
        params.devPtrBase = buffer.object.getBuffer ∧ params.fh = file.handle ∧
        paramsValid buffer.object params.size params.fileOffset params.devPtrOffset = true ∧
        (params.opcode = .batchRead ∨ params.opcode = .batchWrite) ∧ params.mode = .batch := by
  have hvalid : paramsValid buffer.object params.size params.fileOffset params.devPtrOffset = true ↔
      ¬ params.fileOffset < 0 ∧ ¬ params.devPtrOffset < 0 ∧
        ¬ buffer.object.getLength ≤ toSizeT params.devPtrOffset ∧
        ¬ buffer.object.getLength - toSizeT params.devPtrOffset < params.size := by
    unfold paramsValid
    simp only [ite_false_eq_true, and_true]
  rw [hvalid]
  simp only [construct, ite_error_eq_ok, Except.ok.injEq]
  constructor
  · rintro ⟨hb, ho, hl, hs, hf, hfo, hop, hm, rfl⟩
    exact ⟨rfl, not_not.1 hb, not_not.1 hf, ⟨hfo, ho, hl, hs⟩, by tauto, not_not.1 hm⟩
  · rintro ⟨rfl, hb, hf, ⟨hfo, ho, hl, hs⟩, hop, hm⟩
    exact ⟨not_not.2 hb, ho, hl, hs, not_not.2 hf, hfo, by tauto, not_not.2 hm, rfl⟩

open RefCount

namespace BatchContext

/-- The operation holds the parameters of its own element, and the file and the buffer
that the element names, as the driver has found them. -/
def Holds (e : BatchElement) (op : BatchOperation) : Prop :=
  op.address = e.address ∧ op.ioParams = e.params ∧ e.lookup = .ok (op.file, op.buffer) ∧
    op.file.handle = e.params.fh ∧ op.buffer.object.getBuffer = e.params.devPtrBase

/-- The references that operations hold. -/
def refs (ops : List BatchOperation) : List SharedObject := ops.flatMap BatchOperation.refs

/-- **A round** makes the operation of its element and takes its references, or throws
and takes none. -/
theorem submitRound_spec (e : BatchElement) (p : PendingOps) :
    (∃ exn, submitRound e p = (.error exn, p)) ∨
      ∃ op, Holds e op ∧
        submitRound e p = (.ok (), ⟨retainAll p.counts op.refs, p.ops ++ [op]⟩) := by
  unfold submitRound
  cases hlookup : e.lookup with
  | error exn => exact Or.inl ⟨exn, rfl⟩
  | ok found =>
    obtain ⟨file, buffer⟩ := found
    simp only
    cases hop : BatchOperation.construct e.address e.params buffer file with
    | error exn =>
      refine Or.inl ⟨exn, ?_⟩
      -- the round's own references are dropped again
      simp only [releaseAll_retainAll p.counts (List.Perm.refl _)]
    | ok op =>
      obtain ⟨rfl, hb, hf, -⟩ := BatchOperation.construct_eq_ok_iff.1 hop
      refine Or.inr ⟨⟨e.address, e.params, buffer, file⟩,
        ⟨rfl, rfl, hlookup, hf.symm, hb.symm⟩, ?_⟩
      simp only [releaseAll_passing]

theorem refs_append (ops ops' : List BatchOperation) : refs (ops ++ ops') = refs ops ++ refs ops' :=
  List.flatMap_append

/-- **The rounds** make operations of the first elements and take their references; they
throw at one of the elements, or make all operations. -/
theorem submitRounds_spec : ∀ (es : List BatchElement) (p : PendingOps), ∃ ops,
    (∃ exn, submitRounds es p =
      (.error exn, ⟨retainAll p.counts (refs ops), p.ops ++ ops⟩)) ∨
    (List.Forall₂ Holds es ops ∧ submitRounds es p =
      (.ok (), ⟨retainAll p.counts (refs ops), p.ops ++ ops⟩)) := by
  intro es
  induction es with
  | nil =>
    intro p
    refine ⟨[], Or.inr ⟨.nil, ?_⟩⟩
    simp [submitRounds, refs, retainAll]
  | cons e es ih =>
    intro p
    rcases submitRound_spec e p with ⟨exn, hround⟩ | ⟨op, hop, hround⟩
    · refine ⟨[], Or.inl ⟨exn, ?_⟩⟩
      rw [submitRounds, Prog.bind_error hround]
      simp [refs, retainAll]
    · obtain ⟨ops, hops⟩ := ih ⟨retainAll p.counts op.refs, p.ops ++ [op]⟩
      refine ⟨op :: ops, ?_⟩
      rw [submitRounds, Prog.bind_ok hround]
      have hrefs : retainAll (retainAll p.counts op.refs) (refs ops) =
          retainAll p.counts (refs (op :: ops)) := by
        rw [← retainAll_append]; rfl
      have hlist : p.ops ++ [op] ++ ops = p.ops ++ op :: ops := by simp
      simp only [hrefs, hlist] at hops
      rcases hops with ⟨exn, herr⟩ | ⟨hall, hok⟩
      · exact Or.inl ⟨exn, herr⟩
      · exact Or.inr ⟨.cons hop hall, hok⟩

/-- The new operations live where the call has put them. -/
theorem addresses_eq {es : List BatchElement} {ops : List BatchOperation}
    (h : List.Forall₂ Holds es ops) :
    ops.map BatchOperation.address = es.map BatchElement.address := by
  induction h with
  | nil => rfl
  | cons hop _ ih => rw [List.map_cons, List.map_cons, hop.1, ih]

/-- Operations at fresh addresses are all inserted. -/
theorem foldl_insert : ∀ (new ops : List BatchOperation),
    (ops.map BatchOperation.address ++ new.map BatchOperation.address).Nodup →
      new.foldl insert ops = ops ++ new := by
  intro new
  induction new with
  | nil => intro ops _; simp
  | cons op new ih =>
    intro ops h
    have hop : op.address ∉ ops.map BatchOperation.address := by
      intro hmem
      exact (List.nodup_append.1 h).2.2 _ hmem _ (by simp) rfl
    have hrest : ((ops ++ [op]).map BatchOperation.address ++
        new.map BatchOperation.address).Nodup := by
      simpa using h
    rw [List.foldl_cons, insert, if_neg hop, ih _ hrest]
    simp

/-- What a submission does, whether it throws or returns: nothing, or all of it. -/
def AllOrNothing (s : BatchState) (es : List BatchElement) :
    Except Exn Unit × BatchState → Prop
  | (.error _, s') => s' = s
  | (.ok _, s') => ∃ new : List BatchOperation,
    new.length = es.length ∧ List.Forall₂ Holds es new ∧
      (∀ op ∈ new, op.address ∉ s.context.outstandingOps.map BatchOperation.address) ∧
      s'.context.capacity = s.context.capacity ∧
      s'.context.outstandingOps = s.context.outstandingOps ++ new ∧
      s'.counts = retainAll s.counts (refs new)

/-- **A submission is made as a whole or not at all.** -/
theorem submitOperations_spec {s : BatchState} {es : List BatchElement} (hf : Fresh s es) :
    AllOrNothing s es (submitOperations es s) := by
  unfold submitOperations
  split
  · rfl
  · obtain ⟨ops, ⟨exn, herr⟩ | ⟨hall, hok⟩⟩ := submitRounds_spec es ⟨s.counts, []⟩
    · rw [herr]
      show ({ s with counts := releaseAll (retainAll s.counts (refs ops)) (refs ([] ++ ops)) } :
        BatchState) = s
      rw [List.nil_append, releaseAll_retainAll s.counts (List.Perm.refl _)]
    · have hnodup : (s.context.outstandingOps.map BatchOperation.address ++
          ops.map BatchOperation.address).Nodup := by
        rw [addresses_eq hall]; exact hf
      rw [hok]
      refine ⟨ops, hall.length_eq.symm, hall, ?_, rfl, foldl_insert ops _ hnodup, rfl⟩
      intro op hop hmem
      exact (List.nodup_append.1 hnodup).2.2 _ hmem _ (List.mem_map_of_mem hop) rfl

/-- **The invariant of a context**: its operations are distinct objects within the
capacity, and no references are held but theirs. -/
structure Inv (capacity : ℕ) (s : BatchState) : Prop where
  capacity_eq : s.context.capacity = capacity
  capacity_le : capacity ≤ MAX_SIZE
  size_le : s.context.outstandingOps.length ≤ capacity
  nodup : (s.context.outstandingOps.map BatchOperation.address).Nodup
  counts : ∀ o, s.counts o = (refs s.context.outstandingOps).count o

theorem construct_ok {capacity : ℕ} {ctx : BatchContext} (h : construct capacity = .ok ctx) :
    0 < capacity ∧ capacity ≤ MAX_SIZE ∧ ctx = ⟨capacity, []⟩ := by
  simp only [construct, ite_error_eq_ok, Except.ok.injEq] at h
  obtain ⟨h0, hmax, rfl⟩ := h
  exact ⟨Nat.pos_of_ne_zero h0, Nat.le_of_not_lt hmax, rfl⟩

/-- The subtraction of the capacity test does not wrap. -/
theorem room_eq {capacity : ℕ} {s : BatchState} (hI : Inv capacity s) :
    s.context.room = capacity - s.context.outstandingOps.length := by
  have hle := hI.size_le
  have hmax : capacity ≤ 128 := hI.capacity_le
  unfold room
  rw [hI.capacity_eq, toSizeT_of_nonneg (by omega) (by unfold wordModulus; omega)]
  omega

/-- What is returned has passed the capacity test. -/
theorem length_le_room {s s' : BatchState} {es : List BatchElement}
    (h : submitOperations es s = (.ok (), s')) : es.length ≤ s.context.room := by
  unfold submitOperations at h
  split at h
  · cases h
  · rename_i hroom
    exact Nat.le_of_not_lt hroom

theorem inv_step {capacity : ℕ} {s : BatchState} (hI : Inv capacity s) {es : List BatchElement}
    (hf : Fresh s es) : Inv capacity (submitOperations es s).2 := by
  have hspec := submitOperations_spec hf
  cases hr : submitOperations es s with
  | mk ret s' =>
    rw [hr] at hspec
    cases ret with
    | error exn => exact (show s' = s from hspec) ▸ hI
    | ok u =>
      obtain ⟨new, hlen, hall, hfresh, hcap, hops, hcounts⟩ := hspec
      have hroom := length_le_room hr
      rw [room_eq hI] at hroom
      have hsize := hI.size_le
      refine ⟨hcap.trans hI.capacity_eq, hI.capacity_le, ?_, ?_, ?_⟩
      · rw [hops, List.length_append]; omega
      · rw [hops, List.map_append, addresses_eq hall]; exact hf
      · intro o
        rw [hcounts, hops, retainAll_apply, hI.counts o, refs_append, List.count_append]

theorem inv_of_reachable {capacity : ℕ} {ctx : BatchContext} (hctx : construct capacity = .ok ctx)
    {s : BatchState} (hs : (machine ctx).Reachable s) : Inv capacity s := by
  obtain ⟨-, hmax, rfl⟩ := construct_ok hctx
  refine hs.invariant ?_ ?_
  · exact ⟨rfl, hmax, Nat.zero_le _, List.nodup_nil, fun _ => rfl⟩
  · intro s es s' hI _ hst
    simp only [machine, Option.ite_none_right_eq_some, Option.some.injEq] at hst
    obtain ⟨hf, rfl⟩ := hst
    exact inv_step hI hf

/-- **Submissions to any context in any run**: the outstanding operations stay within
the capacity, the capacity test does not wrap, and a submission is made as a whole,
each operation with its own parameters, buffer and file, or not at all. -/
theorem submit_allOrNothing (capacity : ℕ) (ctx : BatchContext)
    (hctx : construct capacity = .ok ctx) (s : BatchState) (hs : (machine ctx).Reachable s)
    (es : List BatchElement) (hf : Fresh s es) :
    s.context.outstandingOps.length ≤ capacity ∧
      (s.context.room : ℤ) = capacity - s.context.outstandingOps.length ∧
      (∀ o, s.counts o = (refs s.context.outstandingOps).count o) ∧
      AllOrNothing s es (submitOperations es s) := by
  have hI := inv_of_reachable hctx hs
  have hroom := room_eq hI
  have hsize := hI.size_le
  exact ⟨hsize, by omega, hI.counts, submitOperations_spec hf⟩

/-- A file, a buffer of 4096 bytes at `0x10000`, and a read of `size` bytes between them. -/
def sampleFile : IFile := ⟨64, 3, 3, none, 0, 0, false, true, false, false⟩

def sampleBuffer : SharedBuffer := ⟨128, ⟨0x10000, 4096, 0, .device, 0⟩⟩

def sampleElement (address size : ℕ) : BatchElement :=
  ⟨⟨.batch, 0x10000, 0, 0, size, 64, .batchRead, 0⟩, .ok (sampleFile, sampleBuffer), address⟩

/-- A context with room for two more operations gets one that is valid and one that is
not, and stays as it is. -/
theorem submit_allOrNothing_sample :
    ∃ s, (machine ⟨3, []⟩).run ⟨⟨3, []⟩, fun _ => 0⟩ [[sampleElement 1000 512]] = some s ∧
      s.context.outstandingOps.length = 1 ∧
      (submitOperations [sampleElement 1001 4096, sampleElement 1002 4097] s).2 = s ∧
      (submitOperations [sampleElement 1001 4096, sampleElement 1002 4097] s).1 ≠ .ok () := by
  refine ⟨_, rfl, rfl, ?_, by decide⟩
  exact (submit_allOrNothing 3 ⟨3, []⟩ rfl _
    (@Machine.reachable_of_run _ _ (machine ⟨3, []⟩) [[sampleElement 1000 512]] _ rfl)
    [sampleElement 1001 4096, sampleElement 1002 4097] (by decide)).2.2.2

end BatchContext

end HipFile
