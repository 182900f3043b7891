import HipFile.Model.StatsConnection

/-!
# What a successful connection leaves

* `Inv`: the messages are the server's, and `m_sfd` is a descriptor that was received for the
  server's, or none.
* `run_roundSteps`: a round of the server's loop is a run of its steps.
* `step_right_iff`: a step that returns from `connectServer` returns what `m_sfd` holds exactly
  if it is as `ReturnsRight` says.
* `connectServer_right_iff`: so in every run.
-/

namespace HipFile.StatsConnection

variable {mfd : ℕ} {s s' : StatsConnection} {l : Step}

/-! ## The invariant -/

/-- The messages are the server's; numbers below zero are no descriptors; `m_sfd` is an open
descriptor for the server's, or none, and as it was at the last return. -/
structure Inv (mfd : ℕ) (s : StatsConnection) : Prop where
  messages : ∀ c, ∀ m ∈ (s.connections c).messages, m = HipFile.sendFd mfd
  entries : ∀ fd < 0, s.fds.entries fd = none
  sfd : s.sfd.fd = -1 ∨ s.sfd.managed = true ∧ ∃ n, s.fds.entries s.sfd.fd = some ⟨.own n, mfd⟩
  last : ∀ r ∈ s.returns.getLast?, r.holds = s.holds mfd

theorem Inv.init (mfd : ℕ) : Inv mfd init where
  messages _ _ := nofun
  entries _ _ := rfl
  sfd := Or.inl rfl
  last _ := nofun

/-- `m_sfd` holds a descriptor of the server's memory exactly if it is not empty. -/
theorem Inv.holds_iff (h : Inv mfd s) : s.holds mfd = true ↔ s.sfd.fd ≠ -1 := by
  constructor
  · intro hholds hfd
    unfold holds at hholds
    rw [hfd, h.entries (-1) (by decide)] at hholds
    cases hholds
  · intro hfd
    obtain ⟨-, n, hn⟩ := h.sfd.resolve_left hfd
    unfold holds
    rw [hn]
    exact decide_eq_true rfl

/-- The client's descriptors and returns are left, and no message of another's is added. -/
structure Frame (mfd : ℕ) (s s' : StatsConnection) : Prop where
  fds : s'.fds = s.fds
  sfd : s'.sfd = s.sfd
  returns : s'.returns = s.returns
  messages : ∀ c, ∀ m ∈ (s'.connections c).messages,
    m ∈ (s.connections c).messages ∨ m = HipFile.sendFd mfd

theorem Frame.of_connections (hfds : s'.fds = s.fds) (hsfd : s'.sfd = s.sfd)
    (hreturns : s'.returns = s.returns) (hconns : s'.connections = s.connections) :
    Frame mfd s s' := ⟨hfds, hsfd, hreturns, fun _ _ hm => Or.inl (hconns ▸ hm)⟩

/-- One connection is changed. -/
theorem Frame.of_update {conn : ℕ} {c : Connection} (hfds : s'.fds = s.fds)
    (hsfd : s'.sfd = s.sfd) (hreturns : s'.returns = s.returns)
    (hconns : s'.connections = Function.update s.connections conn c)
    (hmessages : ∀ m ∈ c.messages,
      m ∈ (s.connections conn).messages ∨ m = HipFile.sendFd mfd) : Frame mfd s s' := by
  refine ⟨hfds, hsfd, hreturns, fun d m hm => ?_⟩
  rw [hconns] at hm
  by_cases hd : d = conn
  · subst hd
    rw [Function.update_self] at hm
    exact hmessages m hm
  · rw [Function.update_of_ne hd] at hm
    exact Or.inl hm

theorem Frame.stop (s : StatsConnection) : Frame mfd s s.stop :=
  ⟨rfl, rfl, rfl, fun _ _ hm => Or.inl hm⟩

theorem Frame.trans {s₁ : StatsConnection} (h : Frame mfd s s₁) (h' : Frame mfd s₁ s') :
    Frame mfd s s' := by
  refine ⟨h'.fds.trans h.fds, h'.sfd.trans h.sfd, h'.returns.trans h.returns, ?_⟩
  intro c m hm
  rcases h'.messages c m hm with hm | hm
  · exact h.messages c m hm
  · exact Or.inr hm

theorem Frame.testShutdown (s : StatsConnection) (shutdown : Bool) :
    Frame mfd s (s.testShutdown shutdown) := by
  unfold StatsConnection.testShutdown
  cases shutdown with
  | true => exact .stop s
  | false => exact .of_connections rfl rfl rfl rfl

theorem Inv.frame (h : Inv mfd s) (hf : Frame mfd s s') : Inv mfd s' := by
  have hholds : s'.holds mfd = s.holds mfd := by
    unfold holds
    rw [hf.fds, hf.sfd]
  refine ⟨?_, ?_, ?_, ?_⟩
  · intro c m hm
    rcases hf.messages c m hm with hm | hm
    · exact h.messages c m hm
    · exact hm
  · rw [hf.fds]
    exact h.entries
  · rw [hf.fds, hf.sfd]
    exact h.sfd
  · rw [hf.returns, hholds]
    exact h.last

/-- The last return is that of the call that leaves. -/
theorem leave_last (s : StatsConnection) (mfd : ℕ) (result : Bool) :
    ∀ r ∈ (s.leave mfd result).returns.getLast?, r.holds = (s.leave mfd result).holds mfd := by
  intro r hr
  rw [StatsConnection.leave, List.getLast?_concat] at hr
  obtain rfl := Option.some.inj hr
  rfl

theorem Inv.leave (h : Inv mfd s) (result : Bool) : Inv mfd (s.leave mfd result) :=
  ⟨h.messages, h.entries, h.sfd, leave_last s mfd result⟩

/-! ## The server's rounds -/

theorem testShutdown_server (s : StatsConnection) (shutdown : Bool) :
    (s.testShutdown shutdown).server = if shutdown then .stopped else .polling := by
  cases shutdown <;> rfl

/-- **A round of the loop is a run of its steps**, at the end of which the server is where
`threadRound` says, if `accept` gives a connection only when one waits. -/
theorem run_roundSteps (rounds : ℕ → ServerRound) (loop : ServerLoop)
    (hpolling : s.server = .polling) (hwaits : s.backlog ≠ []) :
    ∃ s', (machine mfd).run s (roundSteps (rounds loop.rounds)) = some s' ∧
      s'.server = match threadRound rounds loop with
        | .inl _ => .polling
        | .inr _ => .stopped := by
  obtain ⟨conn, backlog, hbacklog⟩ := List.exists_cons_of_ne_nil hwaits
  unfold roundSteps threadRound
  cases hpolled : (rounds loop.rounds).poll.polled with
  | again =>
    simp only [hpolled]
    refine ⟨s, ?_, hpolling⟩
    simp [Machine.run, machine, step, hpolling, hpolled]
  | leave =>
    simp only [hpolled]
    refine ⟨s.stop, ?_, rfl⟩
    simp [Machine.run, machine, step, hpolling, hpolled]
  | ready connection shutdown =>
    cases connection with
    | false =>
      simp only [hpolled]
      refine ⟨s.testShutdown shutdown, ?_, ?_⟩
      · simp [Machine.run, machine, step, hpolling, hpolled]
      · rw [testShutdown_server]
        cases shutdown <;> rfl
    | true =>
      cases haccept : (rounds loop.rounds).accept with
      | error e =>
        simp only [hpolled, haccept]
        refine ⟨{ s with server := .polling }, ?_, rfl⟩
        simp [Machine.run, machine, step, hpolling, hpolled]
      | ok fd =>
        simp only [Machine.run, machine, step, hpolling, hpolled, hbacklog, Option.bind_some,
          if_true, Option.some.injEq, exists_eq_left', testShutdown_server, haccept]
        cases shutdown <;> rfl

/-! ## Assignments of `m_sfd` -/

/-- **What the assignment of a received descriptor leaves**: the new one, and the old one
closed. -/
theorem assignSfd_eq (s : StatsConnection) (mfd : ℕ) (out : RecvOutcome) :
    s.assignSfd mfd out = { s with
      sfd := .makeManaged (recvFd out)
      fds := s.sfd.destroy s.fds }.leave mfd true := rfl

theorem recvFd_valid {cmsg : Cmsghdr} (h : cmsg.Valid) :
    recvFd (.message (some cmsg)) = cmsg.data := by
  refine if_neg ?_
  rintro (hlen | hlevel | htype)
  · exact hlen h.1
  · exact hlevel h.2.1
  · exact htype h.2.2

/-- Without a valid header there is no descriptor. -/
theorem recvFd_eq {out : RecvOutcome} (h : ¬ out.HasRights) : recvFd out = -1 := by
  cases out with
  | error e => rfl
  | endOfStream => rfl
  | message cmsg =>
    cases cmsg with
    | none => rfl
    | some cmsg =>
      refine if_pos ?_
      by_contra hvalid
      simp only [not_or, not_not] at hvalid
      exact h ⟨cmsg, rfl, hvalid⟩

/-- The old descriptor is closed: what remains is as it was, or closed. -/
theorem destroy_entries (d : FileDescriptor) (fds : HandleTable ℤ ℕ) (fd : ℤ) :
    (d.destroy fds).entries fd = if d.Owns ∧ fd = d.fd then none else fds.entries fd := by
  unfold FileDescriptor.destroy
  by_cases howns : d.Owns
  · rw [if_pos howns]
    by_cases hfd : fd = d.fd
    · rw [if_pos ⟨howns, hfd⟩, hfd]
      exact Function.update_self _ _ _
    · rw [if_neg fun h => hfd h.2]
      exact Function.update_of_ne hfd _ _
  · rw [if_neg howns, if_neg fun h => howns h.1]

/-- **Nothing has been received**: `m_sfd` is empty, and the function returns true. -/
theorem Inv.assign_empty (h : Inv mfd s) {out : RecvOutcome} (hout : ¬ out.HasRights) :
    Inv mfd (s.assignSfd mfd out) ∧ ∃ r, (s.assignSfd mfd out).returns = s.returns ++ [r] ∧
      r.result = true ∧ r.holds = false := by
  set s₁ : StatsConnection := { s with
    sfd := .makeManaged (recvFd out)
    fds := s.sfd.destroy s.fds } with hs₁
  have hnone : ∀ fd < 0, s₁.fds.entries fd = none := by
    intro fd hfd
    rw [hs₁, destroy_entries]
    split
    · rfl
    · exact h.entries fd hfd
  have hfd : s₁.sfd.fd = -1 := recvFd_eq hout
  have hholds : s₁.holds mfd = false := by
    unfold holds
    rw [hfd, hnone (-1) (by decide)]
  rw [assignSfd_eq]
  exact ⟨⟨h.messages, hnone, Or.inl hfd, leave_last s₁ mfd true⟩, ⟨_, rfl, rfl, hholds⟩⟩

/-- **A descriptor has been received**: `m_sfd` is that descriptor. -/
theorem Inv.assign_received (h : Inv mfd s) {cmsg : Cmsghdr} (hvalid : cmsg.Valid)
    (hnonneg : 0 ≤ cmsg.data) (hfree : s.fds.entries cmsg.data = none) :
    Inv mfd ({ s with fds := s.fds.openOwn cmsg.data mfd }.assignSfd mfd (.message (some cmsg))) ∧
      ∃ r, ({ s with fds := s.fds.openOwn cmsg.data mfd }.assignSfd mfd
        (.message (some cmsg))).returns = s.returns ++ [r] ∧ r.result = true ∧
          r.holds = true := by
  set s₁ : StatsConnection := { s with
    sfd := .makeManaged (recvFd (.message (some cmsg)))
    fds := s.sfd.destroy (s.fds.openOwn cmsg.data mfd) } with hs₁
  have hfd : s₁.sfd.fd = cmsg.data := recvFd_valid hvalid
  -- the number of the new descriptor is not that of the old one
  have hnew : s₁.fds.entries cmsg.data = some ⟨.own s.fds.nextSerial, mfd⟩ := by
    rw [hs₁, destroy_entries, if_neg]
    · exact Function.update_self _ _ _
    · rintro ⟨howns, heq⟩
      obtain ⟨-, n, hn⟩ := h.sfd.resolve_left howns.2
      rw [← heq, hfree] at hn
      cases hn
  have hnone : ∀ fd < 0, s₁.fds.entries fd = none := by
    intro fd hlt
    have hne : fd ≠ cmsg.data := by omega
    rw [hs₁, destroy_entries]
    split
    · rfl
    · exact (Function.update_of_ne hne _ _).trans (h.entries fd hlt)
  have hholds : s₁.holds mfd = true := by
    unfold holds
    rw [hfd, hnew]
    exact decide_eq_true rfl
  have hassign : { s with fds := s.fds.openOwn cmsg.data mfd }.assignSfd mfd
      (.message (some cmsg)) = s₁.leave mfd true := rfl
  rw [hassign]
  have hsfd : s₁.fds.entries s₁.sfd.fd = some ⟨.own s.fds.nextSerial, mfd⟩ := by
    rw [hfd]
    exact hnew
  exact ⟨⟨h.messages, hnone, Or.inr ⟨rfl, s.fds.nextSerial, hsfd⟩, leave_last s₁ mfd true⟩,
    ⟨_, rfl, rfl, hholds⟩⟩

/-! ## Steps -/

/-- **When a return is right**: `connectServer` leaves without a connection only while it has
no descriptor from before, and with one only if `recvmsg` gives a message with a valid
`SCM_RIGHTS` header. -/
def ReturnsRight (s : StatsConnection) : Step → Prop
  | .socket false => s.sfd.fd = -1
  | .pollProcess true => s.sfd.fd = -1
  | .recvmsg out => out.HasRights
  | _ => True

/-- What a step does to the client's descriptors. -/
inductive Moves (mfd : ℕ) (s : StatsConnection) : Step → StatsConnection → Prop
  | quiet {l : Step} {s' : StatsConnection} (hl : ReturnsRight s l) (hf : Frame mfd s s') :
    Moves mfd s l s'
  | leaves {l : Step} (hl : ReturnsRight s l ↔ s.sfd.fd = -1) :
    Moves mfd s l (s.leave mfd false)
  | empty {s₁ : StatsConnection} {out : RecvOutcome} (hf : Frame mfd s s₁)
    (hout : ¬ out.HasRights) : Moves mfd s (.recvmsg out) (s₁.assignSfd mfd out)
  | received {s₁ : StatsConnection} {cmsg : Cmsghdr} (hf : Frame mfd s s₁)
    (hvalid : cmsg.Valid) (hnonneg : 0 ≤ cmsg.data) (hfree : s₁.fds.entries cmsg.data = none) :
    Moves mfd s (.recvmsg (.message (some cmsg)))
      ({ s₁ with fds := s₁.fds.openOwn cmsg.data mfd }.assignSfd mfd (.message (some cmsg)))

/-- A message that is received. -/
theorem receive_moves (hI : Inv mfd s) {conn : ℕ} {cmsg : Option Cmsghdr}
    {s₁ : StatsConnection} (h : s.receive conn cmsg = some s₁) :
    Moves mfd s (.recvmsg (.message cmsg)) (s₁.assignSfd mfd (.message cmsg)) := by
  unfold receive at h
  cases hmessages : (s.connections conn).messages with
  | nil =>
    rw [hmessages] at h
    cases h
  | cons sent rest =>
    rw [hmessages] at h
    have hsent : sent = HipFile.sendFd mfd :=
      hI.messages conn sent (hmessages ▸ List.mem_cons_self)
    set taken : Connection := { s.connections conn with messages := rest }
    have hframe : Frame mfd s
        { s with connections := Function.update s.connections conn taken } := by
      refine .of_update rfl rfl rfl rfl fun m hm => ?_
      exact Or.inl (hmessages ▸ List.mem_cons_of_mem _ hm)
    cases cmsg with
    | none =>
      obtain rfl := Option.some.inj h
      refine .empty hframe ?_
      rintro ⟨cmsg, hcmsg, -⟩
      cases hcmsg
    | some cmsg =>
      by_cases hvalid : cmsg.Valid
      · simp only [if_pos hvalid, Option.ite_none_right_eq_some] at h
        obtain ⟨⟨hnonneg, hfree⟩, h⟩ := h
        obtain rfl := Option.some.inj h
        have hdata : sent.data.toNat = mfd := by
          rw [hsent]
          rfl
        rw [hdata]
        exact .received hframe hvalid hnonneg hfree
      · simp only [if_neg hvalid] at h
        obtain rfl := Option.some.inj h
        refine .empty hframe ?_
        rintro ⟨cmsg', hcmsg, hvalid'⟩
        cases hcmsg
        exact hvalid hvalid'

/-- **What a step does**, by the case of the step. -/
theorem step_moves (hI : Inv mfd s) (h : (machine mfd).step s l = some s') :
    Moves mfd s l s' := by
  change step mfd s l = some s' at h
  cases l with
  | start ok =>
    simp only [step] at h
    split at h
    · obtain rfl := Option.some.inj h
      cases ok with
      | true => exact .quiet trivial (.of_connections rfl rfl rfl rfl)
      | false => exact .quiet trivial (.stop s)
    · cases h
  | poll p =>
    simp only [step] at h
    split at h
    · split at h
      all_goals obtain rfl := Option.some.inj h
      · exact .quiet trivial (.of_connections rfl rfl rfl rfl)
      · exact .quiet trivial (.stop s)
      · exact .quiet trivial (.of_connections rfl rfl rfl rfl)
      · exact .quiet trivial (.testShutdown s _)
    · cases h
  | accept ok =>
    simp only [step] at h
    split at h
    · split at h
      · split at h
        · cases h
        · obtain rfl := Option.some.inj h
          exact .quiet trivial (.of_connections rfl rfl rfl rfl)
      · obtain rfl := Option.some.inj h
        exact .quiet trivial (.of_connections rfl rfl rfl rfl)
    · cases h
  | sendFd ok =>
    simp only [step] at h
    split at h
    · obtain rfl := Option.some.inj h
      refine .quiet trivial (.of_update rfl rfl rfl rfl fun m hm => ?_)
      cases ok with
      | true => exact (List.mem_append.1 hm).imp_right List.mem_singleton.1
      | false => exact Or.inl hm
    · cases h
  | close =>
    simp only [step] at h
    split at h
    · obtain rfl := Option.some.inj h
      refine .quiet trivial (.trans ?_ (.testShutdown _ _))
      exact .of_update rfl rfl rfl rfl fun m hm => Or.inl hm
    · cases h
  | exit =>
    obtain rfl := Option.some.inj h
    exact .quiet trivial (.stop s)
  | otherConnect =>
    simp only [step, Option.ite_none_right_eq_some] at h
    obtain ⟨-, h⟩ := h
    obtain rfl := Option.some.inj h
    exact .quiet trivial (.of_connections rfl rfl rfl rfl)
  | socket ok =>
    simp only [step] at h
    split at h
    · obtain rfl := Option.some.inj h
      cases ok with
      | true => exact .quiet trivial (.of_connections rfl rfl rfl rfl)
      | false => exact .leaves Iff.rfl
    · cases h
  | pollProcess exited =>
    simp only [step] at h
    split at h
    · obtain rfl := Option.some.inj h
      cases exited with
      | true => exact .leaves Iff.rfl
      | false => exact .quiet trivial (.of_connections rfl rfl rfl rfl)
    · cases h
  | connect ok =>
    simp only [step] at h
    split at h
    · split at h
      · simp only [Option.ite_none_right_eq_some] at h
        obtain ⟨-, h⟩ := h
        obtain rfl := Option.some.inj h
        exact .quiet trivial (.of_connections rfl rfl rfl rfl)
      · obtain rfl := Option.some.inj h
        exact .quiet trivial (.of_connections rfl rfl rfl rfl)
    · cases h
  | recvmsg out =>
    simp only [step] at h
    split at h
    · split at h
      · obtain rfl := Option.some.inj h
        exact .empty (.of_connections rfl rfl rfl rfl) nofun
      · simp only [Option.ite_none_right_eq_some] at h
        obtain ⟨-, h⟩ := h
        obtain rfl := Option.some.inj h
        exact .empty (.of_connections rfl rfl rfl rfl) nofun
      · obtain ⟨s₁, hrecv, rfl⟩ := Option.map_eq_some_iff.1 h
        exact receive_moves hI hrecv
    · cases h

theorem Moves.inv (hI : Inv mfd s) (h : Moves mfd s l s') : Inv mfd s' := by
  cases h with
  | quiet _ hf => exact hI.frame hf
  | leaves _ => exact hI.leave false
  | empty hf hout => exact ((hI.frame hf).assign_empty hout).1
  | received hf hvalid hnonneg hfree =>
    exact ((hI.frame hf).assign_received hvalid hnonneg hfree).1

/-- **What a step returns**: nothing, and then it is right, or a result that is what `m_sfd`
holds exactly if it is right. -/
theorem Moves.returns (hI : Inv mfd s) (h : Moves mfd s l s') :
    (s'.returns = s.returns ∧ ReturnsRight s l) ∨
      ∃ r, s'.returns = s.returns ++ [r] ∧ (r.result = r.holds ↔ ReturnsRight s l) := by
  cases h with
  | quiet hl hf => exact Or.inl ⟨hf.returns, hl⟩
  | leaves hl =>
    refine Or.inr ⟨⟨false, s.holds mfd⟩, rfl, ?_⟩
    rw [hl, ← not_iff_not, ← ne_eq (s.sfd.fd), ← hI.holds_iff]
    cases s.holds mfd <;> decide
  | @empty s₁ out hf hout =>
    obtain ⟨r, hreturns, hresult, hholds⟩ := ((hI.frame hf).assign_empty hout).2
    refine Or.inr ⟨r, by rw [hreturns, hf.returns], ?_⟩
    rw [hresult, hholds]
    exact iff_of_false (by decide) hout
  | @received s₁ cmsg hf hvalid hnonneg hfree =>
    obtain ⟨r, hreturns, hresult, hholds⟩ :=
      ((hI.frame hf).assign_received hvalid hnonneg hfree).2
    refine Or.inr ⟨r, by rw [hreturns, hf.returns], ?_⟩
    rw [hresult, hholds]
    exact iff_of_true rfl ⟨cmsg, rfl, hvalid⟩

/-! ## Runs -/

/-- Every call has returned true exactly if `m_sfd` then held a descriptor of the server's
memory; after one that has returned true a report does not fail for lack of a descriptor. -/
structure Right (s : StatsConnection) : Prop where
  returns : ∀ r ∈ s.returns, r.result = r.holds
  report : ∀ r ∈ s.returns.getLast?, r.result = true → ∀ pfd pid stats,
    StatsClient.generateReport ⟨pfd, s.sfd, pid⟩ (.ok (some stats)) = some stats.report

/-- The second part follows from the first. -/
theorem Inv.right_iff (hI : Inv mfd s) : Right s ↔ ∀ r ∈ s.returns, r.result = r.holds := by
  constructor
  · exact Right.returns
  · intro h
    refine ⟨h, fun r hr hresult pfd pid stats => ?_⟩
    have hholds : s.holds mfd = true := by
      rw [← hI.last r hr, ← h r (List.mem_of_getLast? hr)]
      exact hresult
    exact if_neg (hI.holds_iff.1 hholds)

/-- A step keeps the returns right exactly if it is right itself. -/
theorem step_right_iff (hI : Inv mfd s) (h : (machine mfd).step s l = some s') :
    Right s' ↔ Right s ∧ ReturnsRight s l := by
  have hmoves := step_moves hI h
  rw [hI.right_iff, (hmoves.inv hI).right_iff]
  rcases hmoves.returns hI with ⟨hreturns, hl⟩ | ⟨r, hreturns, hl⟩
  · rw [hreturns]
    exact (and_iff_left hl).symm
  · rw [hreturns, ← hl]
    constructor
    · intro hall
      refine ⟨fun r' hr' => hall r' (List.mem_append_left _ hr'), ?_⟩
      exact hall r (List.mem_append_right _ List.mem_cons_self)
    · rintro ⟨hall, hlast⟩ r' hr'
      rcases List.mem_append.1 hr' with hr' | hr'
      · exact hall r' hr'
      · rw [List.mem_singleton.1 hr']
        exact hlast

/-- **A successful connection carries the server's descriptor** in every order of the server's,
the client's and the other clients' steps in which each return is as `ReturnsRight` says, and
in no other. -/
theorem connectServer_right_iff {mfd : ℕ} {ls : List Step} {s : StatsConnection}
    (hrun : (machine mfd).run (machine mfd).init ls = some s) :
    Right s ↔ (machine mfd).RunMeets ReturnsRight (machine mfd).init ls := by
  have hI : Inv mfd (machine mfd).init := Inv.init mfd
  have hinit : Right (machine mfd).init := hI.right_iff.2 nofun
  refine Machine.runMeets_iff (I := Inv mfd) (Q := fun s => ¬ Right s) ?_ ?_ ?_ ?_ ?_ hI hinit hrun
  · intro s l s' hI hst
    exact (step_moves hI hst).inv hI
  · intro s l s' hI hP hG hst
    exact (step_right_iff hI hst).2 ⟨hP, hG⟩
  · intro s l s' hI _ hG hst hP
    exact hG ((step_right_iff hI hst).1 hP).2
  · intro s l s' hI hQ hst hP
    exact hQ ((step_right_iff hI hst).1 hP).1
  · intro s hQ
    exact hQ

/-- A `poll` of the server that reports a connection. -/
def connectionPending : PollOutcome := ⟨1, 0, POLLIN, 0⟩

/-- The client's connection is accepted. -/
def acceptedRun : List Step :=
  [.start true, .socket true, .pollProcess false, .connect true, .poll connectionPending,
    .accept true]

/-- The descriptor is sent and received. -/
theorem connectServer_right_iff_sent :
    ∃ s, (machine 7).run (machine 7).init
      (acceptedRun ++ [.sendFd true, .recvmsg (.message (some ⟨20, 1, 1, 9⟩)), .close]) = some s ∧
      Right s ∧ s.returns = [⟨true, true⟩] ∧ s.sfd = .makeManaged 9 := by
  have hsome : ∃ s, (machine 7).run (machine 7).init
      (acceptedRun ++ [.sendFd true, .recvmsg (.message (some ⟨20, 1, 1, 9⟩)), .close]) = some s ∧
      s.returns = [⟨true, true⟩] ∧ s.sfd = .makeManaged 9 := ⟨_, rfl, rfl, rfl⟩
  obtain ⟨s, hrun, hreturns, hsfd⟩ := hsome
  have hrights : RecvOutcome.HasRights (.message (some ⟨20, 1, 1, 9⟩)) :=
    ⟨⟨20, 1, 1, 9⟩, rfl, by decide⟩
  refine ⟨s, hrun, (connectServer_right_iff hrun).2 ?_, hreturns, hsfd⟩
  exact ⟨trivial, trivial, trivial, trivial, trivial, trivial, trivial, hrights, trivial, trivial⟩

/-- Where `sendFd` fails, the connection ends without a message: `connectServer` returns true
with an empty `m_sfd`. -/
theorem not_right_unsent :
    ∃ s, (machine 7).run (machine 7).init
      (acceptedRun ++ [.sendFd false, .close, .recvmsg .endOfStream]) = some s ∧
      s.returns = [⟨true, false⟩] ∧ ¬ Right s := by
  refine ⟨_, rfl, rfl, fun h => ?_⟩
  have hbad := h.returns ⟨true, false⟩ List.mem_cons_self
  exact Bool.noConfusion hbad

end HipFile.StatsConnection
