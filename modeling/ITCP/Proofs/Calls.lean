import ITCP.Model.Calls

/-!
# Calls in the wrong state

The functions behind `bind`, `listen`, `connect` and `close` do not look at the state of their
socket, or ignore what `mysocket_t` says about it. The only call that fails is `bind` without a
socket.
-/

namespace ITCP
open Lib

/-! ### The events of a host -/

/-- `bind` as a call and as an event. -/
lemma Kernel.socketBind_eq (k : Kernel) (fd : ℤ) (address : Tuple4) :
    (k.sockets.socketBind fd address).map CallResult.sockets =
      some (k.socketBind fd address).sockets := by
  unfold SocketSet.socketBind Kernel.socketBind
  cases hs : k.sockets.find? fd with
  | none => exact congrArg some (OrdMap.modify_of_none hs (fun s => (s.bind address).1)).symm
  | some s => exact congrArg some (OrdMap.modify_const hs (fun s => (s.bind address).1)).symm

lemma Kernel.socketListen_eq (k : Kernel) (fd : ℤ) :
    (k.sockets.socketListen fd).map CallResult.sockets =
      (k.socketListen fd 1).map Kernel.sockets := by
  unfold SocketSet.socketListen Kernel.socketListen
  cases hs : k.sockets.find? fd with
  | none => rfl
  | some s => exact congrArg some (OrdMap.modify_const hs (·.setStatus .listen)).symm

namespace Host

lemma step_connect (h : Host) (fd : ℤ) (address : Tuple4) (tmp : UInt8) :
    (h.sockets.wrapConnect fd address tmp).map (fun r => (r.sockets, r.sent)) =
      (h.step (.connect fd address tmp)).map (fun r => (r.1.sockets, r.2)) := by
  unfold SocketSet.wrapConnect
  dsimp only [step]
  cases h.sockets.find? fd <;> rfl

/-- The two steps of a client that closes. -/
lemma step_close {h : Host} {fd : ℤ} {tmp : UInt8} {s : MySocket} (hs : h.sockets.find? fd = some s)
    (hrole : s.tcb.role ≠ .server) : ∃ t u, h.step (.close fd tmp) = some (t, [s.wrapCloseFin tmp]) ∧
      t.step (.closeStatus h.closes.length) = some (u, []) ∧
      h.sockets.wrapClose fd tmp = some ⟨none, u.sockets, [s.wrapCloseFin tmp]⟩ := by
  have hfin : h.step (.close fd tmp) = some ({ h with closes := h.closes ++ [⟨fd, .finSent⟩] },
      [s.wrapCloseFin tmp]) := by
    dsimp only [step]
    rw [hs, Option.bind_eq_bind, Option.bind_some, if_neg hrole]
  have hstatus : ∃ u, ({ h with closes := h.closes ++ [⟨fd, .finSent⟩] } : Host).step
      (.closeStatus h.closes.length) = some (u, []) ∧
      u.sockets = h.sockets.modify fd (·.setStatus .finwait1) := by
    dsimp only [step]
    rw [List.getElem?_concat_length]
    exact ⟨_, rfl, rfl⟩
  obtain ⟨u, hu, hsockets⟩ := hstatus
  refine ⟨_, u, hfin, hu, ?_⟩
  rw [SocketSet.wrapClose, hs, Option.bind_eq_bind, Option.bind_some, if_neg hrole]
  rw [hsockets, OrdMap.modify_const hs (·.setStatus .finwait1)]

end Host

/-! ### Which calls fail -/

namespace Call

variable {sockets : SocketSet} {c : Call} {s : MySocket}

/-- A call of `bind` without a socket. -/
def BindsNothing (sockets : SocketSet) : Call → Prop
  | .bind sfd _ => sockets.find? sfd = none
  | _ => False

/-- No other call returns `-1`. -/
lemma fails_iff : c.Fails sockets ↔ c.BindsNothing sockets := by
  cases c with
  | bind sfd address =>
    change sockets.socketBind sfd address = _ ↔ sockets.find? sfd = none
    unfold SocketSet.socketBind
    cases hs : sockets.find? sfd with
    | none => exact iff_of_true rfl rfl
    | some s => simp [bindOK]
  | listen bfd =>
    change sockets.socketListen bfd = _ ↔ False
    unfold SocketSet.socketListen
    cases hs : sockets.find? bfd <;> simp
  | connect fd address tmp =>
    change sockets.wrapConnect fd address tmp = _ ↔ False
    unfold SocketSet.wrapConnect MySocket.wrapConnect
    cases hs : sockets.find? fd <;> simp
  | close fd tmp =>
    change sockets.wrapClose fd tmp = _ ↔ False
    unfold SocketSet.wrapClose
    cases hs : sockets.find? fd with
    | none => simp
    | some s => by_cases hrole : s.tcb.role = .server <;> simp [hrole]

lemma listensAlike_iff {bfd : ℤ} (hs : sockets.find? bfd = some s) :
    ListensAlike sockets bfd s ↔ s.role = .server ∧ s.tcb.status = .closed := by
  unfold ListensAlike SocketSet.socketListen MySocket.listen
  rw [hs]
  by_cases hrole : s.role = .server
  · by_cases hstatus : s.tcb.status = .closed <;> simp [hrole, hstatus]
  · simp [hrole]

/-- A call is guarded exactly when it makes sense, or binds an address to a socket that is not there. -/
theorem guarded_iff (sockets : SocketSet) (c : Call) :
    c.Guarded sockets ↔ c.Permitted sockets ∨ c.BindsNothing sockets := by
  constructor
  · intro h
    by_cases hp : c.Permitted sockets
    · exact Or.inl hp
    · exact Or.inr (fails_iff.mp (h.fails hp))
  · rintro (hp | hnone)
    · refine ⟨fun hnot => absurd hp hnot, fun bfd s hc hs => ?_⟩
      subst hc
      obtain ⟨s', hs', hpermits⟩ := hp
      rw [fd, hs, Option.some.injEq] at hs'
      subst hs'
      exact (listensAlike_iff hs).mpr hpermits
    · refine ⟨fun _ => fails_iff.mpr hnone, fun bfd s hc _ => ?_⟩
      subst hc
      exact hnone.elim

/-- The socket of a client that is connected. -/
def connectedClient : MySocket :=
  { MySocket.create ⟨1, 2, 3, 4⟩ false with tcb := ⟨.client, .estab⟩ }

def connectedSockets : SocketSet := OrdMap.empty.insert 100 connectedClient

/-- `listen` turns an open connection into a listening socket, and `connect` opens it once more. -/
theorem guarded_fails :
    (result connectedSockets (.listen 100)).map (fun r =>
      (r.ret, (r.sockets.find? 100).map (fun s => s.tcb.status))) = some (some 0, some .listen) ∧
    ¬Guarded connectedSockets (.listen 100) ∧
    (result connectedSockets (.connect 100 ⟨1, 2, 3, 5⟩ 0)).map CallResult.sent =
      some [⟨⟨1, 2, 3, 5⟩, 0, 0, setSyn 0, [0]⟩] ∧
    ¬Guarded connectedSockets (.connect 100 ⟨1, 2, 3, 5⟩ 0) := by
  have hsocket : connectedSockets.find? 100 = some connectedClient := rfl
  have hpermits : ∀ c : Call, c.fd = 100 → ¬c.Permits connectedClient →
      ¬c.Permitted connectedSockets := by
    rintro c hfd hnot ⟨s, hs, hs'⟩
    rw [hfd, hsocket, Option.some.injEq] at hs
    exact hnot (hs ▸ hs')
  refine ⟨by decide +kernel, fun h => ?_, by decide +kernel, fun h => ?_⟩
  · refine fails_iff.mp (h.fails (hpermits _ rfl fun hlisten => ?_))
    exact absurd hlisten.2 (by decide)
  · refine fails_iff.mp (h.fails (hpermits _ rfl fun hconnect => ?_))
    rcases hconnect with hstatus | hstatus <;> exact absurd hstatus (by decide)

end Call

end ITCP
