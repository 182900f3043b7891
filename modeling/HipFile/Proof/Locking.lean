import HipFile.Model.Locking

/-!
# The order of the locks

* `ApiCall.keeps`: every call takes its locks in one order, and waits for streams with no
  lock above them.
* `Sound`: what holds of every party, and `parties_relyGuarantee`: that they keep it.
-/

namespace HipFile.Locking

open Waiting

/-- The order of the locks. A wait for a stream stands between those that a launch is made under
and the lock that the streams take. -/
def Lock.rank : Lock → ℕ
  | .batch | .context _ => 2
  | .state | .stream _ => 3
  | .monitor => 5

/-- The level of a wait for a stream. -/
def streamLevel : ℕ := 4

variable {τ : Type}

def Op.kind : Op τ → Kind Lock
  | .lock l _ => .acquire l
  | .unlock l => .release l
  | .launch .. | .synchronize => .wait streamLevel
  | .join => .wait 0
  | .check | .recheck => .jump [.monitor]
  | .sleep => .jump []
  | .pushCompleted _ | .setFinished | .notifyOne | .done _ | .exit => .free

/-! ## The order of the calls -/

/-- A part of a function ends with the locks it has started with. -/
abbrev Keeps (held : List Lock) (ops : List (Op τ)) : Prop :=
  Scoped Lock.rank held (ops.map Op.kind)

variable {held : List Lock} {l : Lock} {m : Mode} {ops ops' : List (Op τ)}

theorem Keeps.append (h : Keeps held ops) (h' : Keeps held ops') : Keeps held (ops ++ ops') := by
  unfold Keeps
  rw [List.map_append]
  exact Scoped.append h h'

theorem keeps_withLock (hl : ∀ h ∈ held, h.rank < l.rank) (h : Keeps (l :: held) ops) :
    Keeps held (withLock l m ops) := by
  unfold Keeps withLock
  simp only [List.map_cons, List.map_append, List.map_nil]
  exact Scoped.lock hl h Scoped.nil

/-- Calls that wait for streams, below the locks that a launch may be made under. -/
theorem keeps_waits (hheld : ∀ h ∈ held, h.rank < streamLevel)
    (h : ∀ op ∈ ops, op.kind = .wait streamLevel) : Keeps held ops := by
  induction ops with
  | nil => exact Scoped.nil
  | cons op ops ih =>
    have hop := h op List.mem_cons_self
    have hrest := ih fun op hop => h op (List.mem_cons_of_mem _ hop)
    unfold Keeps
    rw [List.map_cons, hop]
    exact Scoped.wait hheld hrest

theorem keeps_flatten {parts : List (List (Op τ))} (h : ∀ part ∈ parts, Keeps held part) :
    Keeps held parts.flatten := by
  induction parts with
  | nil => exact Scoped.nil
  | cons part parts ih =>
    have hpart := h part List.mem_cons_self
    have hrest := ih fun part hpart => h part (List.mem_cons_of_mem _ hpart)
    rw [List.flatten_cons]
    exact Keeps.append hpart hrest

theorem keeps_state (hheld : ∀ h ∈ held, h.rank < 3) (m : Mode) :
    Keeps held (withLock .state m [] : List (Op τ)) := keeps_withLock hheld Scoped.nil

theorem keeps_addOp : Keeps [] (AsyncMonitor.addOp : List (Op τ)) :=
  keeps_withLock (by simp) Scoped.nil

theorem keeps_completeOp (last : Bool) : Keeps [] (AsyncMonitor.completeOp last : List (Op τ)) :=
  Keeps.append (keeps_withLock (by simp) (Scoped.free Scoped.nil)) (Scoped.free Scoped.nil)

theorem keeps_destructor : Keeps [] (AsyncMonitor.destructor : List (Op τ)) :=
  Keeps.append (keeps_withLock (by simp) (Scoped.free Scoped.nil))
    (Scoped.free (Scoped.wait (by simp) Scoped.nil))

theorem keeps_launches (hheld : ∀ h ∈ held, h.rank < streamLevel) (t : τ) (works : List Work) :
    Keeps held (works.map (.launch t)) := by
  refine keeps_waits hheld fun op hop => ?_
  obtain ⟨w, -, rfl⟩ := List.mem_map.1 hop
  rfl

theorem keeps_dropOp (last : Bool) : Keeps [] (dropOp last : List (Op τ)) := by
  refine keeps_waits (by simp) fun op hop => ?_
  unfold dropOp at hop
  split at hop
  · obtain rfl := List.mem_singleton.1 hop
    rfl
  · cases hop

theorem keeps_asyncIo (path : AsyncPath τ) : Keeps [] (Fallback.asyncIo path) := by
  have hnone : ∀ h ∈ ([] : List Lock), h.rank < streamLevel := by simp
  cases path with
  | noOp => exact Scoped.nil
  | noBounceBuffer => exact keeps_dropOp true
  | noDevPtr => exact keeps_addOp
  | noAttribute t cleanup last =>
    exact (keeps_addOp.append (keeps_launches hnone t cleanup)).append (keeps_dropOp last)
  | launched s t works cleanup last =>
    have hworks : Keeps [] (withLock (.stream s) .exclusive (works.map (.launch t))) := by
      refine keeps_withLock (by simp) (keeps_launches ?_ t works)
      simp [Lock.rank, streamLevel]
    exact ((keeps_addOp.append hworks).append (keeps_launches hnone t cleanup)).append
      (keeps_dropOp last)

theorem keeps_submitOperations (c n : ℕ) :
    Keeps [] (BatchContext.submitOperations c n : List (Op τ)) := by
  refine keeps_withLock (by simp) (keeps_flatten fun part hpart => ?_)
  obtain rfl := List.eq_of_mem_replicate hpart
  exact keeps_state (by simp [Lock.rank]) .shared

/-- **Every call keeps the order**, in each of its ways, and gives back all locks. -/
theorem ApiCall.keeps (c : ApiCall τ) : Keeps [] c.ops := by
  have hstate : ∀ m, Keeps [] (withLock .state m [] : List (Op τ)) := keeps_state (by simp)
  have hbatch : ∀ m, Keeps [] (withLock .batch m [] : List (Op τ)) :=
    fun m => keeps_withLock (by simp) Scoped.nil
  cases c with
  | hipFileHandleRegister constructed =>
    cases constructed
    · exact Scoped.nil
    · exact hstate .exclusive
  | hipFileHandleDeregister | hipFileBufRegister | hipFileBufDeregister | hipFileDriverOpen
  | hipFileStreamRegister | hipFileStreamDeregister => exact hstate .exclusive
  | hipFileUseCount | asyncNull => exact hstate .shared
  | hipFileDriverClose isOpen =>
    cases isOpen
    · exact (hstate .shared).append Scoped.nil
    · exact (hstate .shared).append (hstate .exclusive)
  | hipFileIo waits =>
    refine (hstate .shared).append (keeps_waits (by simp) fun op hop => ?_)
    obtain rfl := List.eq_of_mem_replicate hop
    rfl
  | asyncUninitialised => exact (hstate .shared).append (hstate .exclusive)
  | asyncNotFound => exact (hstate .shared).append (hstate .shared)
  | async path => exact ((hstate .shared).append (hstate .shared)).append (keeps_asyncIo path)
  | hipFileBatchIOSetUp accepted =>
    cases accepted
    · exact Scoped.nil
    · exact hbatch .exclusive
  | hipFileBatchIOSubmit context lookups =>
    cases context with
    | none => exact hbatch .shared
    | some c => exact (hbatch .shared).append (keeps_submitOperations c lookups)
  | endOfProcess => exact keeps_destructor

/-! ## What the parties do -/

/-- The operations of the callers, but for those of `~AsyncMonitor`. -/
def Op.Plain : Op τ → Prop
  | .lock .. | .unlock _ | .launch .. | .synchronize => True
  | _ => False

/-- The operations of the callers. -/
def Op.Called : Op τ → Prop
  | .lock .. | .unlock _ | .launch .. | .synchronize | .setFinished | .notifyOne | .join => True
  | _ => False

/-- The operations of a stream, in a work. -/
def Op.Streamed : Op τ → Prop
  | .lock .monitor _ | .unlock _ | .pushCompleted _ | .notifyOne => True
  | _ => False

/-- The operations of the completion thread, between two of its tests. -/
def Op.Completing : Op τ → Prop
  | .lock .monitor _ | .unlock _ | .synchronize => True
  | _ => False

/-- What may wake the completion thread is followed by its notification. -/
def Signals : List (Op τ) → Prop
  | [] => True
  | .pushCompleted _ :: ops | .setFinished :: ops =>
    (∃ rest, ops = .unlock .monitor :: .notifyOne :: rest) ∧ Signals ops
  | _ :: ops => Signals ops

theorem Signals.append : ∀ {ops ops' : List (Op τ)}, Signals ops → Signals ops' →
    Signals (ops ++ ops') := by
  intro ops
  induction ops with
  | nil => exact fun _ h => h
  | cons op ops ih =>
    intro ops' h h'
    cases op with
    | pushCompleted | setFinished =>
      obtain ⟨⟨rest, rfl⟩, hrest⟩ := h
      exact ⟨⟨rest ++ ops', rfl⟩, ih hrest h'⟩
    | _ => exact ih h h'

theorem Signals.tail {op : Op τ} (h : Signals (op :: ops)) : Signals ops := by
  cases op with
  | pushCompleted | setFinished => exact h.2
  | _ => exact h

theorem signals_of_plain (h : ∀ op ∈ ops, op.Plain) : Signals ops := by
  induction ops with
  | nil => trivial
  | cons op ops ih =>
    have hop := h op List.mem_cons_self
    have hrest := ih fun op hop => h op (List.mem_cons_of_mem _ hop)
    cases op with
    | lock | unlock | launch | synchronize => exact hrest
    | _ => exact absurd hop id

theorem plain_withLock (l : Lock) (m : Mode) (h : ∀ op ∈ ops, op.Plain) :
    ∀ op ∈ withLock l m ops, op.Plain := by
  intro op hop
  unfold withLock at hop
  simp only [List.mem_cons, List.mem_append, List.not_mem_nil, or_false] at hop
  obtain rfl | hop | rfl := hop
  · trivial
  · exact h op hop
  · trivial

theorem plain_append (h : ∀ op ∈ ops, op.Plain) (h' : ∀ op ∈ ops', op.Plain) :
    ∀ op ∈ ops ++ ops', op.Plain := by
  intro op hop
  obtain hop | hop := List.mem_append.1 hop
  · exact h op hop
  · exact h' op hop

theorem plain_asyncIo (path : AsyncPath τ) : ∀ op ∈ Fallback.asyncIo path, op.Plain := by
  have hadd : ∀ op ∈ (AsyncMonitor.addOp : List (Op τ)), op.Plain :=
    plain_withLock _ _ (by simp)
  have hlaunch : ∀ (t : τ) (works : List Work), ∀ op ∈ works.map (Op.launch t), op.Plain := by
    intro t works op hop
    obtain ⟨w, -, rfl⟩ := List.mem_map.1 hop
    trivial
  have hdrop : ∀ last, ∀ op ∈ (dropOp last : List (Op τ)), op.Plain := by
    intro last op hop
    unfold dropOp at hop
    split at hop
    · obtain rfl := List.mem_singleton.1 hop
      trivial
    · cases hop
  cases path with
  | noOp => simp [Fallback.asyncIo]
  | noBounceBuffer => exact hdrop true
  | noDevPtr => exact hadd
  | noAttribute t cleanup last =>
    exact plain_append (plain_append hadd (hlaunch t cleanup)) (hdrop last)
  | launched s t works cleanup last =>
    have hworks := plain_withLock (.stream s) .exclusive (hlaunch t works)
    exact plain_append (plain_append (plain_append hadd hworks) (hlaunch t cleanup)) (hdrop last)

/-- All calls but the end of the process. -/
theorem ApiCall.plain {c : ApiCall τ} (hc : c ≠ .endOfProcess) : ∀ op ∈ c.ops, op.Plain := by
  have hnil : ∀ op ∈ ([] : List (Op τ)), op.Plain := by simp
  have hstate : ∀ m, ∀ op ∈ (withLock .state m [] : List (Op τ)), op.Plain :=
    fun m => plain_withLock _ _ hnil
  have hbatch : ∀ m, ∀ op ∈ (withLock .batch m [] : List (Op τ)), op.Plain :=
    fun m => plain_withLock _ _ hnil
  cases c with
  | hipFileHandleRegister constructed =>
    cases constructed
    · exact hnil
    · exact hstate .exclusive
  | hipFileHandleDeregister | hipFileBufRegister | hipFileBufDeregister | hipFileDriverOpen
  | hipFileStreamRegister | hipFileStreamDeregister => exact hstate .exclusive
  | hipFileUseCount | asyncNull => exact hstate .shared
  | hipFileDriverClose isOpen =>
    cases isOpen
    · exact plain_append (hstate .shared) hnil
    · exact plain_append (hstate .shared) (hstate .exclusive)
  | hipFileIo waits =>
    refine plain_append (hstate .shared) fun op hop => ?_
    obtain rfl := List.eq_of_mem_replicate hop
    trivial
  | asyncUninitialised => exact plain_append (hstate .shared) (hstate .exclusive)
  | asyncNotFound => exact plain_append (hstate .shared) (hstate .shared)
  | async path =>
    exact plain_append (plain_append (hstate .shared) (hstate .shared)) (plain_asyncIo path)
  | hipFileBatchIOSetUp accepted =>
    cases accepted
    · exact hnil
    · exact hbatch .exclusive
  | hipFileBatchIOSubmit context lookups =>
    cases context with
    | none => exact hbatch .shared
    | some c =>
      refine plain_append (hbatch .shared) (plain_withLock _ _ fun op hop => ?_)
      obtain ⟨part, hpart, hop⟩ := List.mem_flatten.1 hop
      obtain rfl := List.eq_of_mem_replicate hpart
      exact hstate .shared op hop
  | endOfProcess => exact absurd rfl hc

/-- Who waits for the completion thread has told it to finish before, where `b` says whether
somebody has already. -/
def Joins : Bool → List (Op τ) → Prop
  | _, [] => True
  | _, .setFinished :: ops => Joins true ops
  | b, .join :: ops => b = true ∧ Joins b ops
  | b, _ :: ops => Joins b ops

theorem Joins.mono : ∀ {ops : List (Op τ)} {b b' : Bool}, Joins b ops → (b = true → b' = true) →
    Joins b' ops := by
  intro ops
  induction ops with
  | nil => exact fun _ _ => trivial
  | cons op ops ih =>
    intro b b' h hb
    cases op with
    | setFinished => exact h
    | join => exact ⟨hb h.1, ih h.2 hb⟩
    | _ => exact ih (b := b) h hb

theorem Joins.append : ∀ {ops ops' : List (Op τ)} {b : Bool}, Joins b ops → Joins b ops' →
    Joins b (ops ++ ops') := by
  intro ops
  induction ops with
  | nil => exact fun _ h => h
  | cons op ops ih =>
    intro ops' b h h'
    cases op with
    | setFinished => exact ih (b := true) h (h'.mono fun _ => rfl)
    | join => exact ⟨h.1, ih h.2 h'⟩
    | _ => exact ih (b := b) h h'

theorem Joins.tail {op : Op τ} {b b' : Bool} (h : Joins b (op :: ops)) (hb : b = true → b' = true)
    (hset : op = .setFinished → b' = true) : Joins b' ops := by
  cases op with
  | setFinished => exact Joins.mono (b := true) h fun _ => hset rfl
  | join => exact h.2.mono hb
  | _ => exact Joins.mono (b := b) h hb

theorem joins_of_plain {b : Bool} (h : ∀ op ∈ ops, op.Plain) : Joins b ops := by
  induction ops with
  | nil => trivial
  | cons op ops ih =>
    have hop := h op List.mem_cons_self
    have hrest := ih fun op hop => h op (List.mem_cons_of_mem _ hop)
    cases op with
    | lock | unlock | launch | synchronize => exact hrest
    | _ => exact absurd hop id

/-- What a caller has to do, for the calls that it makes. -/
structure Calling (isFinished : Bool) (ops : List (Op τ)) : Prop where
  called : ∀ op ∈ ops, op.Called
  signals : Signals ops
  joins : Joins isFinished ops

theorem calling_flatMap (calls : List (ApiCall τ)) :
    Keeps [] (calls.flatMap ApiCall.ops) ∧ Calling false (calls.flatMap ApiCall.ops) := by
  induction calls with
  | nil => exact ⟨Scoped.nil, by simp, trivial, trivial⟩
  | cons c calls ih =>
    obtain ⟨hkeeps, hcalled, hsignals, hjoins⟩ := ih
    rw [List.flatMap_cons]
    refine ⟨Keeps.append c.keeps hkeeps, ?_⟩
    by_cases hc : c = .endOfProcess
    · subst hc
      have hdestructor : (ApiCall.endOfProcess : ApiCall τ).ops = [.lock .monitor .exclusive,
          .setFinished, .unlock .monitor, .notifyOne, .join] := rfl
      rw [hdestructor]
      refine ⟨fun op hop => ?_, Signals.append ?_ hsignals, Joins.append ?_ hjoins⟩
      · obtain hop | hop := List.mem_append.1 hop
        · simp only [List.mem_cons, List.not_mem_nil, or_false] at hop
          rcases hop with rfl | rfl | rfl | rfl | rfl <;> trivial
        · exact hcalled op hop
      · exact ⟨⟨[.join], rfl⟩, trivial⟩
      · exact ⟨rfl, trivial⟩
    · have hplain := ApiCall.plain hc
      refine ⟨fun op hop => ?_, (signals_of_plain hplain).append hsignals,
        (joins_of_plain hplain).append hjoins⟩
      obtain hop | hop := List.mem_append.1 hop
      · have hop := hplain op hop
        cases op with
        | lock | unlock | launch | synchronize => trivial
        | _ => exact absurd hop id
      · exact hcalled op hop

/-! ## What holds of every party -/

section

variable {ι : Type} {pol : Policy} {calls : ι → List (ApiCall τ)} {p q : Party ι τ}
  {s s' : Shared ι τ} {a a' : Agent τ}

/-- What a party has to do. -/
def Role (p : Party ι τ) (s : Shared ι τ) (a : Agent τ) : Prop :=
  match p with
  | .caller _ => Calling s.isFinished a.ops
  | .stream t => a.ops = [] ∨ s.queues t ≠ [] ∧
      ∃ body, a.ops = body ++ [.done t] ∧ (∀ op ∈ body, op.Streamed) ∧ Signals body
  | .completionThread =>
    a.ops = [] ∧ s.exited = true ∧ s.asleep = false ∨
      a.ops = [.sleep] ∧ s.asleep = true ∨
      (∃ body last, a.ops = body ++ [last] ∧ (∀ op ∈ body, op.Completing) ∧
        (last = .check ∨ last = .recheck ∨ last = .exit)) ∧ s.asleep = false

/-- **The invariant of a party**: it holds the locks that are entered as held by it, and keeps
the order from there. -/
structure Sound (p : Party ι τ) (s : Shared ι τ) (a : Agent τ) : Prop where
  owned : ∀ l m, (p, m) ∈ s.owners l → l ∈ a.held
  disciplined : Disciplined Lock.rank a.held (a.ops.map Op.kind)
  role : Role p s a

/-- **What a party guarantees** of its moves. -/
structure Moved (p : Party ι τ) (s s' : Shared ι τ) : Prop where
  owners : ∀ q l m, q ≠ p → (q, m) ∈ s'.owners l → (q, m) ∈ s.owners l
  queues : ∀ t, p ≠ .stream t → s.queues t ≠ [] → s'.queues t ≠ []
  thread : p ≠ .completionThread → s'.asleep = s.asleep ∧ s'.exited = s.exited
  isFinished : s.isFinished = true → s'.isFinished = true

theorem Sound.stable (hpq : p ≠ q) (h : Sound q s a) (hmoved : Moved p s s') : Sound q s' a := by
  obtain ⟨howned, hdisciplined, hrole⟩ := h
  refine ⟨fun l m hlm => howned l m (hmoved.owners q l m hpq.symm hlm), hdisciplined, ?_⟩
  cases q with
  | caller i =>
    exact ⟨hrole.called, hrole.signals, hrole.joins.mono hmoved.isFinished⟩
  | stream t =>
    obtain hidle | ⟨hqueue, hbody⟩ := hrole
    · exact Or.inl hidle
    · exact Or.inr ⟨hmoved.queues t hpq hqueue, hbody⟩
  | completionThread =>
    obtain ⟨hasleep, hexited⟩ := hmoved.thread hpq
    unfold Role at hrole ⊢
    simp only at hrole ⊢
    rw [hasleep, hexited]
    exact hrole

/-- A move that leaves the locks and the queues. -/
theorem Moved.of_same (howners : s'.owners = s.owners) (hqueues : s'.queues = s.queues)
    (hthread : p ≠ .completionThread → s'.asleep = s.asleep ∧ s'.exited = s.exited)
    (hfinished : s.isFinished = true → s'.isFinished = true) : Moved p s s' := by
  refine ⟨fun q l m _ h => ?_, fun t _ h => ?_, hthread, hfinished⟩
  · rwa [howners] at h
  · rwa [hqueues]

/-- The completion thread goes on awake, with the lock. -/
theorem awake_sound (ops : List (Op τ)) (last : Op τ)
    (howned : ∀ l m, (Party.completionThread, m) ∈ s.owners l → l ∈ [Lock.monitor])
    (hawake : s.asleep = false)
    (hops : ∀ op ∈ ops, op.Completing) (hlast : last = .check ∨ last = .recheck ∨ last = .exit)
    (hdisciplined : Disciplined Lock.rank [.monitor] ((ops ++ [last]).map Op.kind)) :
    Sound .completionThread s (⟨ops ++ [last], [.monitor]⟩ : Agent τ) :=
  ⟨howned, hdisciplined, Or.inr (Or.inr ⟨⟨ops, last, rfl, hops, hlast⟩, hawake⟩)⟩

/-- The operations that go on with the next one, and leave the works of the queues. -/
def Op.Ordinary : Op τ → Prop
  | .done _ | .check | .sleep | .recheck | .exit => False
  | _ => True

theorem Op.Called.ordinary {op : Op τ} (h : op.Called) : op.Ordinary := by
  cases op with
  | done | check | sleep | recheck | exit => exact absurd h id
  | _ => trivial

theorem Op.Streamed.ordinary {op : Op τ} (h : op.Streamed) : op.Ordinary := by
  cases op with
  | done | check | sleep | recheck | exit => exact absurd h id
  | _ => trivial

theorem Op.Completing.ordinary {op : Op τ} (h : op.Completing) : op.Ordinary := by
  cases op with
  | done | check | sleep | recheck | exit => exact absurd h id
  | _ => trivial

/-- **What an ordinary operation does.** -/
structure Ordinarily (p : Party ι τ) (op : Op τ) (ops : List (Op τ)) (s s' : Shared ι τ)
    (a' : Agent τ) : Prop where
  next : a'.ops = ops
  owned : ∀ l m, (p, m) ∈ s'.owners l → l ∈ a'.held
  disciplined : Disciplined Lock.rank a'.held (ops.map Op.kind)
  owners : ∀ q l m, q ≠ p → (q, m) ∈ s'.owners l → (q, m) ∈ s.owners l
  queues : ∀ t, s.queues t ≠ [] → s'.queues t ≠ []
  asleep : s'.asleep = s.asleep
  exited : s'.exited = s.exited
  isFinished : s.isFinished = true → s'.isFinished = true
  setFinished : op = .setFinished → s'.isFinished = true

theorem Ordinarily.moved {op : Op τ} (h : Ordinarily p op ops s s' a') : Moved p s s' :=
  ⟨h.owners, fun t _ => h.queues t, fun _ => ⟨h.asleep, h.exited⟩, h.isFinished⟩

theorem work_keeps (w : Work) : Keeps [] (w.ops : List (Op τ)) ∧
    (∀ op ∈ (w.ops : List (Op τ)), op.Streamed) ∧ Signals (w.ops : List (Op τ)) := by
  cases w with
  | compute => exact ⟨Scoped.nil, by simp [Work.ops], trivial⟩
  | cleanup last =>
    refine ⟨keeps_completeOp last, fun op hop => ?_, ⟨[], rfl⟩, trivial⟩
    have hops : op ∈ [.lock .monitor .exclusive, .pushCompleted last, .unlock .monitor,
        Op.notifyOne] := hop
    simp only [List.mem_cons, List.not_mem_nil, or_false] at hops
    rcases hops with rfl | rfl | rfl | rfl <;> trivial
  | cleanupUnknown =>
    refine ⟨keeps_addOp, fun op hop => ?_, trivial⟩
    have hops : op ∈ [.lock .monitor .exclusive, (Op.unlock .monitor : Op τ)] := hop
    simp only [List.mem_cons, List.not_mem_nil, or_false] at hops
    rcases hops with rfl | rfl <;> trivial

variable [DecidableEq ι] [DecidableEq τ]

/-- The locks after a party has given one back. -/
theorem mem_release {l l' : Lock} {m : Mode} (h : (q, m) ∈ (s.release p l').owners l) :
    (q, m) ∈ s.owners l ∧ (q = p → l ≠ l') := by
  unfold Shared.release at h
  simp only [Function.update_apply] at h
  split at h
  · obtain ⟨hmem, hne⟩ := List.mem_filter.1 h
    rename_i hl
    subst hl
    exact ⟨hmem, fun hq => absurd hq (by simpa using hne)⟩
  · rename_i hl
    exact ⟨h, fun _ => hl⟩

theorem moved_release (l : Lock) : Moved p s (s.release p l) :=
  ⟨fun _ _ _ _ h => (mem_release h).1, fun _ _ h => h, fun _ => ⟨rfl, rfl⟩, fun h => h⟩

/-- The completion thread gives the lock back and sleeps. -/
theorem sleep_sound
    (howned : ∀ l m, (Party.completionThread, m) ∈ s.owners l → l ∈ [Lock.monitor]) :
    Sound .completionThread (s.sleep .completionThread) (⟨[.sleep], []⟩ : Agent τ) ∧
      Moved .completionThread s (s.sleep .completionThread) := by
  have hnone : ∀ l m, (Party.completionThread, m) ∈
      (s.release .completionThread .monitor).owners l → l ∈ ([] : List Lock) := by
    intro l m h
    obtain ⟨hmem, hne⟩ := mem_release h
    exact absurd (List.mem_singleton.1 (howned l m hmem)) (hne rfl)
  have hmoved := moved_release (s := s) (p := .completionThread) .monitor
  exact ⟨⟨hnone, ⟨rfl, rfl⟩, Or.inr (Or.inl ⟨rfl, rfl⟩)⟩,
    hmoved.owners, hmoved.queues, fun h => absurd rfl h, hmoved.isFinished⟩

theorem check_sound (hpol : pol.unlocksFirst = true)
    (howned : ∀ l m, (Party.completionThread, m) ∈ s.owners l → l ∈ [Lock.monitor])
    (hawake : s.asleep = false) (h : s.check pol .completionThread = (s', a')) :
    Sound .completionThread s' a' ∧ Moved .completionThread s s' := by
  unfold Shared.check at h
  split at h
  · rename_i last rest hcompleted
    obtain ⟨rfl, rfl⟩ := Prod.mk.inj h
    rw [hpol, if_pos rfl]
    refine ⟨?_, Moved.of_same rfl rfl (fun _ => ⟨rfl, rfl⟩) id⟩
    cases last with
    | true =>
      refine awake_sound (s := { s with completedOps := rest })
        [.unlock .monitor, .synchronize, .lock .monitor .exclusive] .check howned hawake ?_
        (Or.inl rfl) ?_
      · simp [Op.Completing]
      · simp [Op.kind, Disciplined]
    | false =>
      refine awake_sound (s := { s with completedOps := rest })
        [.unlock .monitor, .lock .monitor .exclusive] .check howned hawake ?_ (Or.inl rfl) ?_
      · simp [Op.Completing]
      · simp [Op.kind, Disciplined]
  · split at h
    · obtain ⟨rfl, rfl⟩ := Prod.mk.inj h
      refine ⟨awake_sound [.unlock .monitor] .exit howned hawake ?_ (Or.inr (Or.inr rfl)) ?_,
        Moved.of_same rfl rfl (fun _ => ⟨rfl, rfl⟩) id⟩
      · simp [Op.Completing]
      · simp [Op.kind, Disciplined]
    · obtain ⟨rfl, rfl⟩ := Prod.mk.inj h
      exact sleep_sound howned

theorem recheck_sound
    (howned : ∀ l m, (Party.completionThread, m) ∈ s.owners l → l ∈ [Lock.monitor])
    (hawake : s.asleep = false) (h : s.recheck .completionThread = (s', a')) :
    Sound .completionThread s' a' ∧ Moved .completionThread s s' := by
  unfold Shared.recheck at h
  split at h
  · obtain ⟨rfl, rfl⟩ := Prod.mk.inj h
    refine ⟨awake_sound [.unlock .monitor, .lock .monitor .exclusive] .check howned hawake ?_
      (Or.inl rfl) ?_, Moved.of_same rfl rfl (fun _ => ⟨rfl, rfl⟩) id⟩
    · simp [Op.Completing]
    · simp [Op.kind, Disciplined]
  · obtain ⟨rfl, rfl⟩ := Prod.mk.inj h
    exact sleep_sound howned

/-! ## Moves -/

variable [Fintype τ]

theorem ordinarily {op : Op τ} (howned : ∀ l m, (p, m) ∈ s.owners l → l ∈ held)
    (hdisciplined : Disciplined Lock.rank held ((op :: ops).map Op.kind))
    (hstep : op.step pol p s ops held = some (s', a')) (hop : op.Ordinary) :
    Ordinarily p op ops s s' a' := by
  cases op with
  | lock l m =>
    simp only [Op.step, Option.ite_none_right_eq_some, Option.some.injEq] at hstep
    obtain ⟨-, hstep⟩ := hstep
    obtain ⟨rfl, rfl⟩ := Prod.mk.inj hstep
    have howners : ∀ q l' m', (q, m') ∈ (Function.update s.owners l ((p, m) :: s.owners l)) l' →
        (q, m') ∈ s.owners l' ∨ q = p ∧ l' = l := by
      intro q l' m' h
      rw [Function.update_apply] at h
      split at h
      · rename_i hl
        subst hl
        obtain hq | hmem := List.mem_cons.1 h
        · exact Or.inr ⟨(Prod.mk.inj hq).1, rfl⟩
        · exact Or.inl hmem
      · exact Or.inl h
    refine ⟨rfl, fun l' m' h => ?_, hdisciplined.2, fun q l' m' hq h => ?_, fun _ h => h, rfl, rfl,
      id, nofun⟩
    · obtain hmem | ⟨-, rfl⟩ := howners p l' m' h
      · exact List.mem_cons_of_mem _ (howned l' m' hmem)
      · exact List.mem_cons_self
    · obtain hmem | ⟨rfl, -⟩ := howners q l' m' h
      · exact hmem
      · exact absurd rfl hq
  | unlock l =>
    obtain ⟨rfl, rfl⟩ := Prod.mk.inj (Option.some.inj hstep)
    obtain ⟨hhead, hrest⟩ := hdisciplined
    have hmoved := moved_release (s := s) (p := p) l
    refine ⟨rfl, fun l' m h => ?_, hrest, hmoved.owners, fun _ h => h, rfl, rfl, id, nofun⟩
    obtain ⟨hmem, hne⟩ := mem_release h
    have hheld := howned l' m hmem
    cases held with
    | nil => cases hheld
    | cons l₁ held =>
      obtain rfl : l₁ = l := Option.some.inj hhead
      exact (List.mem_cons.1 hheld).resolve_left (hne rfl)
  | launch t w =>
    simp only [Op.step, Option.ite_none_right_eq_some, Option.some.injEq] at hstep
    obtain ⟨-, hstep⟩ := hstep
    obtain ⟨rfl, rfl⟩ := Prod.mk.inj hstep
    refine ⟨rfl, howned, hdisciplined.2, fun _ _ _ _ h => h, fun t' h => ?_, rfl, rfl, id, nofun⟩
    simp only [Function.update_apply]
    split
    · simp
    · exact h
  | synchronize | join =>
    simp only [Op.step, Option.ite_none_right_eq_some, Option.some.injEq] at hstep
    obtain ⟨-, hstep⟩ := hstep
    obtain ⟨rfl, rfl⟩ := Prod.mk.inj hstep
    exact ⟨rfl, howned, hdisciplined.2, fun _ _ _ _ h => h, fun _ h => h, rfl, rfl, id, nofun⟩
  | pushCompleted last =>
    obtain ⟨rfl, rfl⟩ := Prod.mk.inj (Option.some.inj hstep)
    exact ⟨rfl, howned, hdisciplined, fun _ _ _ _ h => h, fun _ h => h, rfl, rfl, id, nofun⟩
  | setFinished =>
    obtain ⟨rfl, rfl⟩ := Prod.mk.inj (Option.some.inj hstep)
    exact ⟨rfl, howned, hdisciplined, fun _ _ _ _ h => h, fun _ h => h, rfl, rfl, fun _ => rfl,
      fun _ => rfl⟩
  | notifyOne =>
    obtain ⟨rfl, rfl⟩ := Prod.mk.inj (Option.some.inj hstep)
    exact ⟨rfl, howned, hdisciplined, fun _ _ _ _ h => h, fun _ h => h, rfl, rfl, id, nofun⟩
  | done | check | sleep | recheck | exit => exact absurd hop id

/-- **Callers** keep the invariant. -/
theorem caller_own {i : ι} (h : Sound (.caller i) s a)
    (hstep : step pol (.caller i) s a = some (s', a')) :
    Sound (.caller i) s' a' ∧ Moved (.caller i) s s' := by
  obtain ⟨ops, held⟩ := a
  obtain ⟨howned, hdisciplined, hcalled, hsignals, hjoins⟩ := h
  cases ops with
  | nil => cases hstep
  | cons op ops =>
    have hordinary := (hcalled op List.mem_cons_self).ordinary
    have hop := ordinarily howned hdisciplined hstep hordinary
    have hops := hop.next
    refine ⟨⟨hop.owned, hops ▸ hop.disciplined, ?_, ?_, ?_⟩, hop.moved⟩
    · rw [hops]
      exact fun op hop => hcalled op (List.mem_cons_of_mem _ hop)
    · rw [hops]
      exact hsignals.tail
    · rw [hops]
      exact hjoins.tail hop.isFinished hop.setFinished

/-- **Streams** keep the invariant. -/
theorem stream_own {t : τ} (h : Sound (.stream t) s a)
    (hstep : step pol (.stream t) s a = some (s', a')) :
    Sound (.stream t) s' a' ∧ Moved (.stream t) s s' := by
  obtain ⟨ops, held⟩ := a
  obtain ⟨howned, hdisciplined, hrole⟩ := h
  cases ops with
  | nil =>
    obtain rfl : held = [] := hdisciplined
    unfold step at hstep
    simp only at hstep
    split at hstep
    · rename_i w rest hqueue
      obtain ⟨rfl, rfl⟩ := Prod.mk.inj (Option.some.inj hstep)
      obtain ⟨hkeeps, hstreamed, hsignals⟩ := work_keeps (τ := τ) w
      refine ⟨⟨howned, ?_, Or.inr ⟨?_, w.ops, rfl, hstreamed, hsignals⟩⟩,
        Moved.of_same rfl rfl (fun _ => ⟨rfl, rfl⟩) id⟩
      · exact (Keeps.append hkeeps (Scoped.free Scoped.nil)).disciplined
      · rw [hqueue]
        exact List.cons_ne_nil _ _
    · cases hstep
  | cons op ops =>
    obtain hnil | ⟨hqueue, body, hbody, hstreamed, hsignals⟩ := hrole
    · cases hnil
    cases body with
    | nil =>
      obtain ⟨rfl, rfl⟩ := List.cons.inj hbody
      obtain ⟨rfl, rfl⟩ := Prod.mk.inj (Option.some.inj hstep)
      refine ⟨⟨howned, hdisciplined, Or.inl rfl⟩, fun _ _ _ _ h => h, fun t' ht h => ?_,
        fun _ => ⟨rfl, rfl⟩, id⟩
      have hne : t' ≠ t := by
        rintro rfl
        exact ht rfl
      simp only [Function.update_of_ne hne]
      exact h
    | cons op' body =>
      obtain ⟨rfl, rfl⟩ := List.cons.inj hbody
      have hordinary := (hstreamed op List.mem_cons_self).ordinary
      have hop := ordinarily howned hdisciplined hstep hordinary
      have hops := hop.next
      refine ⟨⟨hop.owned, hops ▸ hop.disciplined, Or.inr ⟨hop.queues t hqueue, body, hops, ?_,
        hsignals.tail⟩⟩, hop.moved⟩
      exact fun op hop => hstreamed op (List.mem_cons_of_mem _ hop)

/-- **The completion thread** keeps the invariant, as it gives its lock back before it frees an
op. -/
theorem thread_own (hpol : pol.unlocksFirst = true) (h : Sound .completionThread s a)
    (hstep : step pol .completionThread s a = some (s', a')) :
    Sound .completionThread s' a' ∧ Moved .completionThread s s' := by
  obtain ⟨ops, held⟩ := a
  obtain ⟨howned, hdisciplined, hrole⟩ := h
  obtain ⟨hops, -⟩ | ⟨hops, hasleep⟩ | ⟨⟨body, last, hops, hbody, hlast⟩, hawake⟩ := hrole
  · obtain rfl : ops = [] := hops
    cases hstep
  · obtain rfl : ops = [.sleep] := hops
    simp only [step, Op.step, Option.ite_none_right_eq_some, Option.some.injEq] at hstep
    obtain ⟨-, hstep⟩ := hstep
    obtain ⟨rfl, rfl⟩ := Prod.mk.inj hstep
    obtain ⟨rfl, -⟩ : held = [] ∧ _ := hdisciplined
    refine ⟨⟨howned, ?_, Or.inr (Or.inr ⟨⟨[.lock .monitor .exclusive], .recheck, rfl, ?_,
      Or.inr (Or.inl rfl)⟩, rfl⟩)⟩, fun _ _ _ _ h => h, fun _ _ h => h, fun h => absurd rfl h, id⟩
    · simp [Op.kind, Disciplined]
    · simp [Op.Completing]
  · obtain rfl : ops = body ++ [last] := hops
    cases body with
    | nil =>
      rcases hlast with rfl | rfl | rfl
      · obtain ⟨rfl, -⟩ : held = [.monitor] ∧ _ := hdisciplined
        exact check_sound hpol howned hawake (Option.some.inj hstep)
      · obtain ⟨rfl, -⟩ : held = [.monitor] ∧ _ := hdisciplined
        exact recheck_sound howned hawake (Option.some.inj hstep)
      · obtain ⟨rfl, rfl⟩ := Prod.mk.inj (Option.some.inj hstep)
        exact ⟨⟨howned, hdisciplined, Or.inl ⟨rfl, rfl, hawake⟩⟩, fun _ _ _ _ h => h,
          fun _ _ h => h, fun h => absurd rfl h, id⟩
    | cons op body =>
      have hordinary := (hbody op List.mem_cons_self).ordinary
      have hop := ordinarily howned hdisciplined hstep hordinary
      have hops := hop.next
      refine ⟨⟨hop.owned, hops ▸ hop.disciplined, Or.inr (Or.inr ⟨⟨body, last, hops, ?_, hlast⟩,
        hop.asleep.trans hawake⟩)⟩, hop.moved⟩
      exact fun op hop => hbody op (List.mem_cons_of_mem _ hop)

/-- **All parties keep to what they guarantee.** -/
theorem parties_relyGuarantee (hpol : pol.unlocksFirst = true) :
    (parties pol calls).RelyGuarantee (fun _ _ _ => True) Sound Moved := by
  refine ⟨fun p => ?_, fun {p s a s' a'} h _ hstep => ?_,
    fun {p q s a s'} hpq h hmoved => h.stable hpq hmoved⟩
  · cases p with
    | caller i =>
      obtain ⟨hkeeps, hcalling⟩ := calling_flatMap (calls i)
      exact ⟨nofun, hkeeps.disciplined, hcalling⟩
    | stream t => exact ⟨nofun, rfl, Or.inl rfl⟩
    | completionThread =>
      refine ⟨nofun, ?_, Or.inr (Or.inr ⟨⟨[.lock .monitor .exclusive], .check, rfl, ?_,
        Or.inl rfl⟩, rfl⟩)⟩
      · exact ⟨nofun, rfl, rfl⟩
      · simp [Op.Completing]
  · cases p with
    | caller i => exact caller_own h hstep
    | stream t => exact stream_own h hstep
    | completionThread => exact thread_own hpol h hstep

end

end HipFile.Locking
