import ProcCtrld.EventLoop

/-!
# ProcCtrld.SameRuns

The event loop over the bytes of its clients (`EventLoop`) against the daemon whose labels are the
requests themselves (`Served`, and with it the `step` of `ProcCtrld.Daemon`).

* `served_run_of_loop_run` — the event loop does nothing that the daemon over requests does not.
* `loop_run_of_served_run` — for every run of the daemon over requests there are clients whose bytes
  make the event loop take it. The streams are found from the end of the run: what a connection has
  to hold before a step is what it has to hold after it, behind the frame that the step reads.
* `same_runs_iff` — together: both reach the same states by the same requests. A run of requests is
  thus never an artefact of the labels, and all that holds of the runs of `Served` holds of the bytes.
-/

namespace ProcCtrld

open FlatBuffers

/-- The request that a step acts upon. -/
def ServedLabel.request : ServedLabel → Option Request
  | .daemon (.runCommand com _) => some (.runCommand com)
  | .daemon (.killProcess pid) => some (.killProcess pid)
  | .daemon .unexpected => some .unexpected
  | _ => none

theorem ServedLabel.request_label (req : Request) (os : LaunchOs) :
    (ServedLabel.daemon (req.label os)).request = some req := by
  cases req <;> rfl

/-- Which step of the event loop a label stands for. -/
theorem ServedLabel.sorted (l : ServedLabel) :
    (l.onSocket = false ∧ l.request = none) ∨ (∃ fd, l = .daemon (.sockConnexion fd)) ∨
      l = .daemon .sockClosed ∨ ∃ (req : Request) (os : LaunchOs), l = .daemon (req.label os) := by
  cases l with
  | daemon l =>
    cases l with
    | runCommand com os => exact .inr (.inr (.inr ⟨.runCommand com, os, rfl⟩))
    | killProcess pid => exact .inr (.inr (.inr ⟨.killProcess pid, .pipeFails, rfl⟩))
    | unexpected => exact .inr (.inr (.inr ⟨.unexpected, .pipeFails, rfl⟩))
    | sockClosed => exact .inr (.inr (.inl rfl))
    | sockConnexion fd => exact .inr (.inl ⟨fd, rfl⟩)
    | _ => exact .inl ⟨rfl, rfl⟩
  | _ => exact .inl ⟨rfl, rfl⟩

/-! ## From bytes to requests -/

section Loop

variable {verify : Bytes → Int → Option Message} {t t' : EventLoop}

theorem run_of_faulted {ls : List LoopLabel} (hf : t.faulted = true)
    (h : Lts.run (loopStep verify) t ls = some t') : t' = t := by
  cases ls with
  | nil => exact (Option.some.inj h).symm
  | cons l ls => simp [Lts.run, loopStep, hf] at h

theorem served_run_of_loop_run {ls : List LoopLabel} (hf : t'.faulted = false)
    (h : Lts.run (loopStep verify) t ls = some t') :
    ∃ ls', Lts.run servedStep t.served ls' = some t'.served ∧
      t'.handled.map (·.2) = t.handled.map (·.2) ++ ls'.filterMap ServedLabel.request := by
  induction ls generalizing t with
  | nil =>
    cases h
    exact ⟨[], rfl, by simp⟩
  | cons l ls ih =>
    simp only [Lts.run] at h
    split at h
    · rename_i t₁ hs
      obtain ⟨-, heffect⟩ := loopStep_effect hs
      cases heffect with
      | @served l served hl hstep =>
        obtain ⟨ls', hrun, hreq⟩ := ih h
        have hnone : l.request = none := by
          rcases l.sorted with ⟨-, hnone⟩ | ⟨fd, rfl⟩ | rfl | ⟨req, os, rfl⟩
          · exact hnone
          · rfl
          · rfl
          · cases req <;> cases hl
        refine ⟨l :: ls', by simpa [Lts.run, hstep] using hrun, ?_⟩
        rw [hreq, List.filterMap_cons_none hnone]
      | @accepts fd stream served hstep =>
        obtain ⟨ls', hrun, hreq⟩ := ih h
        exact ⟨.daemon (.sockConnexion fd) :: ls', by simpa [Lts.run, servedStep, hstep] using hrun, hreq⟩
      | faults =>
        have := run_of_faulted rfl h
        subst this
        cases hf
      | @closes _ _ _ _ _ _ served hmode hbatch hstep =>
        obtain ⟨ls', hrun, hreq⟩ := ih h
        rw [advance_handled] at hreq
        exact ⟨.daemon .sockClosed :: ls', by simpa [Lts.run, servedStep, hstep] using hrun, hreq⟩
      | @handles _ _ os fd _ _ req served hread hdispatch hstep =>
        obtain ⟨ls', hrun, hreq⟩ := ih h
        refine ⟨.daemon (req.label os) :: ls', by simpa [Lts.run, servedStep, hstep] using hrun, ?_⟩
        rw [hreq, List.filterMap_cons_some (ServedLabel.request_label req os)]
        simp
    · cases h

end Loop

/-! ## From requests to bytes -/

section Served

variable {verify : Bytes → Int → Option Message} {u u' : Served} {l : ServedLabel}

/-- Some payload makes the daemon act upon the request. -/
def Carried (verify : Bytes → Int → Option Message) (req : Request) : Prop :=
  ∃ p, p ≠ [] ∧ p.length < 2 ^ 31 ∧ dispatch verify p p.length = .ok req

/-- The event loop is in the state of the daemon, and its connections hold `contents`. -/
structure WillServe (u : Served) (contents : Conn → List Bytes) (t : EventLoop) : Prop where
  served : t.served = u
  faulted : t.faulted = false
  unread : t.unread.length = u.accepted
  contents : ∀ x ∈ u.conns, t.unread.getD x.2 [] = contents x.2

theorem sockMessage_frame {p : Bytes} (hne : p ≠ []) (hlen : p.length < 2 ^ 31) (rest : List Bytes) :
    sockMessage mallocOk (frame p :: rest) = (.handled p, rest) := by
  have hpos := List.length_pos_iff.mpr hne
  have hhdr : Chunks.read 4 (frame p :: rest) = (intBytes p.length, p :: rest) := by
    rw [Chunks.read, if_neg (by rw [length_frame]; omega)]
    rfl
  have hbody : Chunks.read p.length (p :: rest) = (p, rest) := by
    rw [Chunks.read, if_pos le_rfl]
  refine sockMessage_handled.mpr ⟨hne, readSocketMessage_eq_some.mpr ?_⟩
  rw [hhdr, intOfBytes_intBytes hlen]
  exact ⟨rfl, rfl, rfl, Int.natCast_nonneg _, rfl, rfl, hbody⟩

theorem request_batch {req : Request} {os : LaunchOs} (h : u.daemonStep (req.label os) = some u') :
    ∃ fd rest, u.daemon.mode = .loop ∧ u.daemon.batch = .sockMessage fd :: rest := by
  simp only [Served.daemonStep] at h
  split at h
  · split at h
    · rename_i s hs
      cases req with
      | runCommand com =>
        simp only [Request.label, step, State.runCommand] at hs
        split at hs
        · exact ⟨_, _, ‹_›, ‹_›⟩
        · cases hs
      | killProcess pid =>
        simp only [Request.label, step, State.killProcess] at hs
        split at hs
        · exact ⟨_, _, ‹_›, ‹_›⟩
        · cases hs
      | unexpected =>
        simp only [Request.label, step, State.unexpected] at hs
        split at hs
        · exact ⟨_, _, ‹_›, ‹_›⟩
        · cases hs
    · cases h
  · cases h

theorem sockClosed_batch (h : u.daemonStep .sockClosed = some u') :
    ∃ fd rest, u.daemon.mode = .loop ∧ u.daemon.batch = .sockMessage fd :: rest := by
  simp only [Served.daemonStep] at h
  split at h
  · split at h
    · rename_i s hs
      simp only [step, State.sockClosed] at hs
      split at hs
      · exact ⟨_, _, ‹_›, ‹_›⟩
      · cases hs
    · cases h
  · cases h

/-- The contents that let the event loop read `chunk` at the descriptor `fd` before `contents`. -/
def before (u : Served) (fd : Fd) (chunk : Bytes) (contents : Conn → List Bytes) : Conn → List Bytes :=
  match connOf u.conns fd with
  | some c => Function.update contents c (chunk :: contents c)
  | none => contents

variable {contents : Conn → List Bytes} {t : EventLoop} {fd : Fd} {chunk : Bytes}

theorem before_of_ne {c : Conn} (h : connOf u.conns fd ≠ some c) :
    before u fd chunk contents c = contents c := by
  unfold before
  cases hconn : connOf u.conns fd with
  | none => rfl
  | some c₀ =>
    refine Function.update_of_ne ?_ ..
    rintro rfl
    exact h hconn

theorem before_self {c : Conn} (h : connOf u.conns fd = some c) :
    before u fd chunk contents c = chunk :: contents c := by
  simp only [before, h]
  exact Function.update_self ..

/-- Once that chunk is read, the connections hold what they are to hold afterwards. -/
theorem WillServe.readable (h : WillServe u (before u fd chunk contents) t) (hu : Tidy u) :
    ∃ rest, t.readable fd [chunk] = chunk :: rest ∧
      ∀ x ∈ u.conns, (t.advance fd rest).unread.getD x.2 [] = contents x.2 := by
  cases hconn : connOf u.conns fd with
  | none =>
    refine ⟨[], by simp [EventLoop.readable, h.served, hconn], fun x hx => ?_⟩
    rw [advance_unread_of_ne (by rw [h.served, hconn]; simp), h.contents x hx,
      before_of_ne (by rw [hconn]; simp)]
  | some c =>
    have hread : t.unread.getD c [] = chunk :: contents c := by
      rw [h.contents _ (connOf_mem hconn), before_self hconn]
    refine ⟨contents c, by simp only [EventLoop.readable, h.served, hconn, hread], fun x hx => ?_⟩
    by_cases hxc : x.2 = c
    · have hlen : c < t.unread.length := by
        rw [h.unread, ← hxc]
        exact hu.known x hx
      rw [hxc, advance_unread_self (by rw [h.served, hconn]) hlen]
    · have hne : connOf u.conns fd ≠ some x.2 := by
        rw [hconn]
        simpa using Ne.symm hxc
      rw [advance_unread_of_ne (by rw [h.served]; exact hne), h.contents x hx, before_of_ne hne]

/-- Whatever the connections are to hold after the step `l` of the daemon, they can hold before it what
makes the event loop take the step. -/
def Followed (verify : Bytes → Int → Option Message) (u : Served) (l : ServedLabel) (u' : Served) : Prop :=
  ∀ contents' : Conn → List Bytes, ∃ (contents : Conn → List Bytes) (l' : LoopLabel),
    ∀ t, WillServe u contents t → ∃ t', loopStep verify t l' = some t' ∧ WillServe u' contents' t' ∧
      t'.handled.map (·.2) = t.handled.map (·.2) ++ l.request.toList

theorem followed_of_quiet (hsock : l.onSocket = false) (hnone : l.request = none)
    (hs : servedStep u l = some u') : Followed verify u l u' := by
  intro contents'
  have hl : ∀ fd, l ≠ .daemon (.sockConnexion fd) := by
    rintro fd rfl
    cases hsock
  obtain ⟨hacc, hsub⟩ := servedStep_conns hs hl
  refine ⟨contents', .served l, fun t ht => ⟨{ t with served := u' }, ?_, ⟨rfl, ht.faulted, ?_, ?_⟩, ?_⟩⟩
  · simp [loopStep, ht.faulted, EventLoop.servedStep, hsock, ht.served, hs]
  · rw [hacc]
    exact ht.unread
  · exact fun x hx => ht.contents x (hsub x hx)
  · simp [hnone]

/-- The new client brings the whole of what its connection is to hold. -/
theorem followed_of_accept (hu : Tidy u) (hs : u.daemonStep (.sockConnexion fd) = some u') :
    Followed verify u (.daemon (.sockConnexion fd)) u' := by
  intro contents'
  obtain ⟨hacc, conns, hconns, hsub⟩ := accept_conns hs
  refine ⟨contents', .sockConnexion fd (contents' u.accepted), fun t ht => ?_⟩
  refine ⟨{ t with
    served := u'
    streams := t.streams ++ [contents' u.accepted]
    unread := t.unread ++ [contents' u.accepted] }, ?_, ⟨rfl, ht.faulted, ?_, ?_⟩, ?_⟩
  · simp [loopStep, ht.faulted, EventLoop.sockConnexion, ht.served, hs]
  · simp [ht.unread, hacc]
  · intro x hx
    rw [hconns] at hx
    rcases List.mem_cons.mp hx with rfl | hx
    · simp [List.getD_eq_getElem?_getD, ← ht.unread]
    · have hlt : x.2 < t.unread.length := ht.unread ▸ hu.known x (hsub x hx)
      have hsame := ht.contents x (hsub x hx)
      rw [List.getD_eq_getElem?_getD] at hsame ⊢
      rw [List.getElem?_append_left hlt]
      exact hsame
  · simp [ServedLabel.request]

theorem sockMessage_zero_frame (chunks : List Bytes) :
    ∃ rest, sockMessage mallocOk (intBytes 0 :: chunks) = (.closed, rest) := by
  have hhdr : Chunks.read 4 (intBytes 0 :: chunks) = (intBytes 0, chunks) := rfl
  have hlen : (Chunks.read 0 chunks).1.length = 0 := by
    cases chunks with
    | nil => rfl
    | cons c cs =>
      simp only [Chunks.read]
      split
      · rename_i hc
        simpa using hc
      · rfl
  have hbody : Chunks.read 0 chunks = ([], (Chunks.read 0 chunks).2) :=
    Prod.ext (List.eq_nil_of_length_eq_zero hlen) rfl
  refine ⟨(Chunks.read 0 chunks).2, sockMessage_closed.mpr (readSocketMessage_eq_some.mpr ?_)⟩
  rw [hhdr]
  exact ⟨rfl, rfl, rfl, le_rfl, rfl, rfl, hbody⟩

theorem followed_of_close (hu : Tidy u) (hs : u.daemonStep .sockClosed = some u') :
    Followed verify u (.daemon .sockClosed) u' := by
  intro contents'
  obtain ⟨fd, rest, hmode, hbatch⟩ := sockClosed_batch hs
  obtain ⟨hacc, hsub⟩ := sockClosed_conns hs hmode hbatch
  refine ⟨before u fd (intBytes 0) contents', .sockMessage mallocOk [intBytes 0] .pipeFails, fun t ht => ?_⟩
  obtain ⟨chunks, hread, -⟩ := ht.readable hu
  obtain ⟨rest', hclosed⟩ := sockMessage_zero_frame chunks
  rw [← hread] at hclosed
  refine ⟨{ t.advance fd rest' with served := u' }, ?_, ⟨rfl, by simp [ht.faulted], ?_, ?_⟩, ?_⟩
  · simp [loopStep, ht.faulted, EventLoop.sockMessage, ht.served, hmode, hbatch, hclosed, hs]
  · simp [ht.unread, hacc]
  · -- the connection that was closed is gone
    intro x hx
    obtain ⟨hmem, hne⟩ := hsub x hx
    have hconn : connOf u.conns fd ≠ some x.2 := by
      intro hconn
      have := hu.unique hmem (connOf_mem hconn) rfl
      exact hne (congrArg Prod.fst this)
    rw [advance_unread_of_ne (by rw [ht.served]; exact hconn), ht.contents x hmem, before_of_ne hconn]
  · simp [ServedLabel.request]

theorem followed_of_request (hu : Tidy u) {req : Request} {os : LaunchOs} (hcarried : Carried verify req)
    (hs : u.daemonStep (req.label os) = some u') : Followed verify u (.daemon (req.label os)) u' := by
  intro contents'
  obtain ⟨fd, rest, hmode, hbatch⟩ := request_batch hs
  obtain ⟨p, hne, hlen, hdispatch⟩ := hcarried
  have hlabel : ∀ fd', ServedLabel.daemon (req.label os) ≠ .daemon (.sockConnexion fd') := by
    cases req <;> simp [Request.label]
  obtain ⟨hacc, hsub⟩ := servedStep_conns (l := .daemon (req.label os)) hs hlabel
  refine ⟨before u fd (frame p) contents', .sockMessage mallocOk [frame p] os, fun t ht => ?_⟩
  obtain ⟨chunks, hread, hafter⟩ := ht.readable hu
  have hhandled : sockMessage mallocOk (t.readable fd [frame p]) = (.handled p, chunks) := by
    rw [hread, sockMessage_frame hne hlen]
  refine ⟨{ t.advance fd chunks with
    served := u'
    handled := t.handled ++ [(connOf t.served.conns fd, req)] }, ?_, ⟨rfl, by simp [ht.faulted], ?_, ?_⟩, ?_⟩
  · simp [loopStep, ht.faulted, EventLoop.sockMessage, ht.served, hmode, hbatch, hhandled, hdispatch, hs]
  · simp [ht.unread, hacc]
  · exact fun x hx => hafter x (hsub x hx)
  · simp [ServedLabel.request_label]

theorem followed (hu : Tidy u) (hcarried : ∀ req, l.request = some req → Carried verify req)
    (hs : servedStep u l = some u') : Followed verify u l u' := by
  rcases l.sorted with ⟨hsock, hnone⟩ | ⟨fd, rfl⟩ | rfl | ⟨req, os, rfl⟩
  · exact followed_of_quiet hsock hnone hs
  · exact followed_of_accept hu hs
  · exact followed_of_close hu hs
  · exact followed_of_request hu (hcarried req (ServedLabel.request_label req os)) hs

/-- For every run of the daemon over requests, some contents of its connections make the event loop
follow it. -/
theorem loop_run_of_served_run {ls : List ServedLabel} (hu : Tidy u)
    (hcarried : ∀ req ∈ ls.filterMap ServedLabel.request, Carried verify req)
    (hrun : Lts.run servedStep u ls = some u') :
    ∃ (contents : Conn → List Bytes) (ls' : List LoopLabel), ∀ t, WillServe u contents t →
      ∃ t', Lts.run (loopStep verify) t ls' = some t' ∧ t'.served = u' ∧ t'.faulted = false ∧
        t'.handled.map (·.2) = t.handled.map (·.2) ++ ls.filterMap ServedLabel.request := by
  induction ls generalizing u with
  | nil =>
    cases hrun
    exact ⟨fun _ => [], [], fun t ht => ⟨t, rfl, ht.served, ht.faulted, by simp⟩⟩
  | cons l ls ih =>
    simp only [Lts.run] at hrun
    split at hrun
    · rename_i u₁ hs
      have hl : ∀ req, l.request = some req → Carried verify req := by
        intro req hreq
        refine hcarried req ?_
        rw [List.filterMap_cons_some hreq]
        exact List.mem_cons_self
      have hls : ∀ req ∈ ls.filterMap ServedLabel.request, Carried verify req := by
        intro req hreq
        refine hcarried req ?_
        rw [List.filterMap_cons]
        split
        · exact hreq
        · exact List.mem_cons_of_mem _ hreq
      obtain ⟨contents₁, ls', hfollow⟩ := ih (tidy_step hu hs) hls hrun
      obtain ⟨contents, l', hstep⟩ := followed hu hl hs contents₁
      refine ⟨contents, l' :: ls', fun t ht => ?_⟩
      obtain ⟨t₁, hs₁, ht₁, hhandled₁⟩ := hstep t ht
      obtain ⟨t', hrun', hserved, hfaulted, hhandled⟩ := hfollow t₁ ht₁
      refine ⟨t', by simpa [Lts.run, hs₁] using hrun', hserved, hfaulted, ?_⟩
      rw [hhandled, hhandled₁, List.append_assoc, List.filterMap_cons]
      cases l.request <;> rfl
    · cases hrun

end Served

/-! ## Both -/

section Both

variable {verify : Bytes → Int → Option Value} {bytes : Package → Value → Bytes}

/-- A client makes the request, or some payload that is no request is refused by the verifier. -/
def Sendable (verify : Bytes → Int → Option Value) (bytes : Package → Value → Bytes) (req : Request) :
    Prop :=
  (∃ call : Call, call.Sound verify bytes ∧ call.request = req) ∨
    (req = .unexpected ∧ ∃ p : Bytes, p ≠ [] ∧ p.length < 2 ^ 31 ∧ verify p p.length = none)

theorem Sendable.carried {req : Request} (h : Sendable verify bytes req) :
    Carried (asMessages verify) req := by
  rcases h with ⟨call, hsound, rfl⟩ | ⟨rfl, p, hne, hlen, hrefused⟩
  · exact ⟨_, hsound.payload_read.1, hsound.short, Call.dispatched hsound⟩
  · exact ⟨p, hne, hlen, dispatch_of_refused hrefused⟩

/-- The event loop over bytes and the daemon over requests reach the same states by the same requests,
whatever the requests that clients can send. -/
theorem same_runs_iff (heap : Nat → ProcessInfo) (nfds : Nat) (sock : Fd) (port : Nat) (u : Served)
    {reqs : List Request} (hreqs : ∀ req ∈ reqs, Sendable verify bytes req) :
    (∃ (ls : List LoopLabel) (t : EventLoop),
      Lts.run (loopStep (asMessages verify)) (.init heap nfds sock port) ls = some t ∧
        t.faulted = false ∧ t.served = u ∧ t.handled.map (·.2) = reqs) ↔
      ∃ ls, Lts.run servedStep (.init heap nfds sock port) ls = some u ∧
        ls.filterMap ServedLabel.request = reqs := by
  constructor
  · rintro ⟨ls, t, hrun, hf, rfl, rfl⟩
    obtain ⟨ls', hrun', hhandled⟩ := served_run_of_loop_run hf hrun
    exact ⟨ls', hrun', by rw [hhandled]; rfl⟩
  · rintro ⟨ls, hrun, rfl⟩
    obtain ⟨contents, ls', hfollow⟩ := loop_run_of_served_run (tidy_init heap nfds sock port)
      (fun req hreq => (hreqs req hreq).carried) hrun
    have hinit : WillServe (.init heap nfds sock port) contents (.init heap nfds sock port) :=
      ⟨rfl, rfl, rfl, fun x hx => by cases hx⟩
    obtain ⟨t', hrun', hserved, hf, hhandled⟩ := hfollow _ hinit
    exact ⟨ls', t', hrun', hf, hserved, by rw [hhandled]; rfl⟩

end Both

/-- A client runs a command, and then sends what is no request. -/
def lsThenNoise : List ServedLabel :=
  List.map .daemon (connects ++
    [.epollWait [.sockMessage 8], .runCommand lsCommand (.clones (some 9) (10, 11) 20 4096),
     .launchReturns true, .epollWait [.sockMessage 8], .unexpected])

theorem ls_then_noise_sent :
    ∃ u, Lts.run servedStep .start lsThenNoise = some u ∧ ∃ (ls : List LoopLabel) (t : EventLoop),
      Lts.run (loopStep (asMessages verifyLs)) .start ls = some t ∧ t.faulted = false ∧ t.served = u ∧
        t.handled.map (·.2) = [.runCommand lsCommand, .unexpected] := by
  obtain ⟨u, hu⟩ := Option.isSome_iff_exists.mp
    (show (Lts.run servedStep .start lsThenNoise).isSome by decide +kernel)
  have hsendable : ∀ req ∈ [Request.runCommand lsCommand, .unexpected], Sendable verifyLs lsBytes req := by
    intro req hreq
    rcases List.mem_pair.mp hreq with rfl | rfl
    · exact .inl ⟨_, lsCall_sound .python, rfl⟩
    · exact .inr ⟨rfl, [7], by decide, by decide, rfl⟩
  exact ⟨u, hu, (same_runs_iff _ 8 0 8080 u hsendable).mpr ⟨lsThenNoise, hu, rfl⟩⟩

end ProcCtrld
