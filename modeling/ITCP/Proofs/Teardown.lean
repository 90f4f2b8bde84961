import ITCP.Model.Host
import ITCP.Lib.Run

/-!
# The end of a connection, by kinds of packets

The abstract model of a teardown that the client begins: the status of the two ends, the call of
`close` of the client, and the kinds of the packets on their way in either direction, in order. The
sockets are shown to follow it in `ITCP.Proofs.Closing`.
-/

namespace ITCP
open Lib

inductive Kind
  | data
  | ack
  | fin
  deriving DecidableEq

/-- What a packet does to the status of a connection, and what is sent back. An ACK on an open
connection may have data sent again. -/
def react (x : Status) (k : Kind) (resend : Bool) : Status × List Kind :=
  match k, x with
  | .data, _ => (x, [.ack])
  | .ack, .synrcvd => (.estab, [])
  | .ack, .finwait1 => (.finwait2, [])
  | .ack, .closing => (.timewait, [])
  | .ack, .lastack => (.closed, [])
  | .ack, .estab => (.estab, if resend then [.data] else [])
  | .ack, _ => (x, [])
  | .fin, .estab => (.lastack, [.ack, .fin])
  | .fin, .finwait1 => (.closing, [.ack])
  | .fin, .finwait2 => (.timewait, [.ack])
  | .fin, _ => (x, [])

structure Teardown where
  client : Status
  server : Status
  /-- The call of `close` of the client. -/
  close : Option ClosePc
  toServer : List Kind
  toClient : List Kind

inductive TeardownEvent
  | send
  | close
  | closeStatus
  | closeReturn
  | client (resend : Bool)
  | server (resend : Bool)
  | skip

namespace Teardown

def step (s : Teardown) : TeardownEvent → Option Teardown
  | .send => if s.close = none then some { s with toServer := s.toServer ++ [.data] } else none
  | .close =>
    if s.close = none then some { s with toServer := s.toServer ++ [.fin], close := some .finSent }
    else none
  | .closeStatus =>
    if s.close = some .finSent then
      some { s with client := .finwait1, close := some (.spin .timewait) }
    else none
  | .closeReturn =>
    if s.close = some (.spin s.client) then some { s with close := some .returned } else none
  | .client resend =>
    match s.toClient with
    | [] => none
    | k :: rest => some { s with
        client := (react s.client k resend).1
        toClient := rest
        toServer := s.toServer ++ (react s.client k resend).2 }
  | .server resend =>
    match s.toServer with
    | [] => none
    | k :: rest => some { s with
        server := (react s.server k resend).1
        toServer := rest
        toClient := s.toClient ++ (react s.server k resend).2 }
  | .skip => some s

/-- Before FINWAIT1 has been written, the client takes neither the FIN of the server nor the ACK in
front of it, unless data is sent again on the ACK or is still to be acknowledged behind the FIN. -/
def Harmless (s : Teardown) : TeardownEvent → Prop
  | .client resend => s.close = some .finSent → s.toClient.head? ≠ some .fin ∧
      (s.toClient.tail.head? = some .fin →
        resend ∨ s.toClient.tail.tail ≠ [] ∨ s.toServer ≠ [])
  | _ => True

/-- The status of a client that waits for the packets of the server. -/
def Awaits (close : ClosePc) (x : Status) : Prop :=
  close = .finSent ∧ x = .estab ∨ close = .spin .timewait ∧ (x = .finwait1 ∨ x = .finwait2)

/-- How far the teardown has come: the FIN of the client is not sent, is on its way, or has been
answered; then the ACK of the server has been processed, its FIN too, and the last ACK too. There may
be data on its way and ACKs for data, before the FINs and behind them. -/
inductive Phase : Teardown → Prop
  | transfer (n j : ℕ) :
      Phase ⟨.estab, .estab, none, List.replicate n .data, List.replicate j .ack⟩
  | finSent (n m j : ℕ) {close x} : Awaits close x →
      Phase ⟨x, .estab, some close, List.replicate n .data ++ .fin :: List.replicate m .data,
        List.replicate j .ack⟩
  | answered (m j k : ℕ) {close x} : Awaits close x →
      Phase ⟨x, .lastack, some close, List.replicate m .data,
        List.replicate j .ack ++ .ack :: .fin :: List.replicate k .ack⟩
  | finNext (m k : ℕ) {close x} : Awaits close x → x = .finwait2 ∨ m ≠ 0 ∨ k ≠ 0 →
      Phase ⟨x, .lastack, some close, List.replicate m .data, .fin :: List.replicate k .ack⟩
  | acked (m k : ℕ) {close x} : close ≠ .finSent → x = .timewait ∨ x = .closing ∧ (m ≠ 0 ∨ k ≠ 0) →
      Phase ⟨x, .lastack, some close, List.replicate m .data ++ [.ack], List.replicate k .ack⟩
  | closed (k : ℕ) {close x} : close ≠ .finSent → x = .timewait ∨ x = .closing ∧ k ≠ 0 →
      Phase ⟨x, .closed, some close, [], List.replicate k .ack⟩

variable {s t : Teardown} {e : TeardownEvent}

lemma closeStatus_cases (ht : s.step .closeStatus = some t) : s.close = some .finSent ∧
    t = { s with client := .finwait1, close := some (.spin .timewait) } := by
  obtain ⟨hclose, ht⟩ := Option.ite_none_right_eq_some.mp ht
  exact ⟨hclose, (Option.some.inj ht).symm⟩

lemma closeReturn_cases (ht : s.step .closeReturn = some t) :
    s.close = some (.spin s.client) ∧ t = { s with close := some .returned } := by
  obtain ⟨hclose, ht⟩ := Option.ite_none_right_eq_some.mp ht
  exact ⟨hclose, (Option.some.inj ht).symm⟩

lemma client_cases {resend : Bool} (ht : s.step (.client resend) = some t) :
    ∃ k rest, s.toClient = k :: rest ∧ t = { s with
      client := (react s.client k resend).1
      toClient := rest
      toServer := s.toServer ++ (react s.client k resend).2 } := by
  simp only [step] at ht
  split at ht
  · cases ht
  · rename_i k rest hlist
    exact ⟨k, rest, hlist, (Option.some.inj ht).symm⟩

lemma server_cases {resend : Bool} (ht : s.step (.server resend) = some t) :
    ∃ k rest, s.toServer = k :: rest ∧ t = { s with
      server := (react s.server k resend).1
      toServer := rest
      toClient := s.toClient ++ (react s.server k resend).2 } := by
  simp only [step] at ht
  split at ht
  · cases ht
  · rename_i k rest hlist
    exact ⟨k, rest, hlist, (Option.some.inj ht).symm⟩

/-- A waiting client stays one on an ACK, and leaves FINWAIT1. -/
lemma Awaits.ack {close : ClosePc} {x : Status} (h : Awaits close x) (resend : Bool) : ∃ x' i,
    react x .ack resend = (x', List.replicate i .data) ∧ Awaits close x' ∧
      (close = .finSent ∧ resend = decide (i ≠ 0) ∨ x' = .finwait2) := by
  rcases h with ⟨rfl, rfl⟩ | ⟨rfl, rfl | rfl⟩
  · cases resend with
    | false => exact ⟨.estab, 0, rfl, Or.inl ⟨rfl, rfl⟩, Or.inl ⟨rfl, rfl⟩⟩
    | true => exact ⟨.estab, 1, rfl, Or.inl ⟨rfl, rfl⟩, Or.inl ⟨rfl, rfl⟩⟩
  · exact ⟨.finwait2, 0, rfl, Or.inr ⟨rfl, Or.inr rfl⟩, Or.inr rfl⟩
  · exact ⟨.finwait2, 0, rfl, Or.inr ⟨rfl, Or.inr rfl⟩, Or.inr rfl⟩

lemma Phase.client_step {resend : Bool} (h : Phase s) (hc : s.Harmless (.client resend))
    (ht : s.step (.client resend) = some t) : Phase t := by
  cases h with
  | transfer n j =>
    cases j with
    | zero => cases ht
    | succ j =>
      obtain rfl := Option.some.inj ht
      cases resend with
      | false => simpa [react] using Phase.transfer n j
      | true => simpa [react, List.replicate_succ'] using Phase.transfer (n + 1) j
  | finSent n m j hw =>
    cases j with
    | zero => cases ht
    | succ j =>
      obtain ⟨x', i, hreact, hw', -⟩ := hw.ack resend
      obtain rfl := Option.some.inj ht
      simpa [hreact, List.append_assoc] using Phase.finSent n (m + i) j hw'
  | answered m j k hw =>
    obtain ⟨x', i, hreact, hw', hcase⟩ := hw.ack resend
    cases j with
    | zero =>
      have hmore : x' = .finwait2 ∨ m + i ≠ 0 ∨ k ≠ 0 := by
        rcases hcase with ⟨rfl, rfl⟩ | hx'
        · have hleft := (hc rfl).2 rfl
          simp only [decide_eq_true_eq, List.replicate_zero, List.nil_append, List.tail_cons, ne_eq,
            List.replicate_eq_nil_iff] at hleft
          omega
        · exact Or.inl hx'
      obtain rfl := Option.some.inj ht
      simpa [hreact] using Phase.finNext (m + i) k hw' hmore
    | succ j =>
      obtain rfl := Option.some.inj ht
      simpa [hreact] using Phase.answered (m + i) j k hw'
  | finNext m k hw hmore =>
    obtain rfl := Option.some.inj ht
    rcases hw with ⟨rfl, rfl⟩ | ⟨rfl, rfl | rfl⟩
    · exact absurd rfl (hc rfl).1
    · exact .acked m k nofun (Or.inr ⟨rfl, hmore.resolve_left nofun⟩)
    · exact .acked m k nofun (Or.inl rfl)
  | acked m k hclose hx =>
    cases k with
    | zero => cases ht
    | succ k =>
      obtain rfl := Option.some.inj ht
      rcases hx with rfl | ⟨rfl, -⟩
      · simpa [react] using Phase.acked m k hclose (Or.inl rfl)
      · simpa [react] using Phase.acked m k hclose (Or.inl rfl)
  | closed k hclose hx =>
    cases k with
    | zero => cases ht
    | succ k =>
      obtain rfl := Option.some.inj ht
      rcases hx with rfl | ⟨rfl, -⟩
      · simpa [react] using Phase.closed k hclose (Or.inl rfl)
      · simpa [react] using Phase.closed k hclose (Or.inl rfl)

lemma Phase.server_step {resend : Bool} (h : Phase s) (ht : s.step (.server resend) = some t) :
    Phase t := by
  cases h with
  | transfer n j =>
    cases n with
    | zero => cases ht
    | succ n =>
      obtain rfl := Option.some.inj ht
      simpa [react, List.replicate_succ'] using Phase.transfer n (j + 1)
  | finSent n m j hw =>
    cases n with
    | zero =>
      obtain rfl := Option.some.inj ht
      exact .answered m j 0 hw
    | succ n =>
      obtain rfl := Option.some.inj ht
      simpa [react, List.replicate_succ'] using Phase.finSent n m (j + 1) hw
  | answered m j k hw =>
    cases m with
    | zero => cases ht
    | succ m =>
      obtain rfl := Option.some.inj ht
      simpa [react, List.replicate_succ'] using Phase.answered m j (k + 1) hw
  | finNext m k hw hmore =>
    cases m with
    | zero => cases ht
    | succ m =>
      obtain rfl := Option.some.inj ht
      simpa [react, List.replicate_succ'] using
        Phase.finNext m (k + 1) hw (Or.inr (Or.inr k.succ_ne_zero))
  | acked m k hclose hx =>
    cases m with
    | zero =>
      obtain rfl := Option.some.inj ht
      simpa [react] using Phase.closed k hclose (by simpa using hx)
    | succ m =>
      obtain rfl := Option.some.inj ht
      simpa [react, List.replicate_succ'] using Phase.acked m (k + 1) hclose
        (hx.imp_right fun hx => ⟨hx.1, Or.inr k.succ_ne_zero⟩)
  | closed k hclose hx => cases ht

/-- The write of FINWAIT1. -/
lemma Phase.closeStatus_step (h : Phase s) (ht : s.step .closeStatus = some t) : Phase t := by
  have hwrite : Awaits (.spin .timewait) .finwait1 := Or.inr ⟨rfl, Or.inl rfl⟩
  cases h with
  | transfer n j => cases ht
  | finSent n m j hw =>
    rcases hw with ⟨rfl, rfl⟩ | ⟨rfl, -⟩
    · obtain rfl := Option.some.inj ht
      exact .finSent n m j hwrite
    · cases ht
  | answered m j k hw =>
    rcases hw with ⟨rfl, rfl⟩ | ⟨rfl, -⟩
    · obtain rfl := Option.some.inj ht
      exact .answered m j k hwrite
    · cases ht
  | finNext m k hw hmore =>
    rcases hw with ⟨rfl, rfl⟩ | ⟨rfl, -⟩
    · obtain rfl := Option.some.inj ht
      exact .finNext m k hwrite (Or.inr (hmore.resolve_left nofun))
    · cases ht
  | acked m k hclose hx =>
    obtain ⟨hfin, rfl⟩ := closeStatus_cases ht
    exact absurd (Option.some.inj hfin) hclose
  | closed k hclose hx =>
    obtain ⟨hfin, rfl⟩ := closeStatus_cases ht
    exact absurd (Option.some.inj hfin) hclose

/-- The call returns in TIMEWAIT only. -/
lemma Phase.closeReturn_step (h : Phase s) (ht : s.step .closeReturn = some t) : Phase t := by
  have hwaits : ∀ {close x}, Awaits close x → some close ≠ some (.spin x) := by
    rintro close x (⟨rfl, rfl⟩ | ⟨rfl, rfl | rfl⟩) <;> decide
  cases h with
  | transfer n j => cases ht
  | finSent n m j hw | answered m j k hw | finNext m k hw hmore =>
    obtain ⟨hreturn, rfl⟩ := closeReturn_cases ht
    exact absurd hreturn (hwaits hw)
  | acked m k hclose hx =>
    obtain ⟨hreturn, rfl⟩ := closeReturn_cases ht
    exact .acked m k nofun hx
  | closed k hclose hx =>
    obtain ⟨hreturn, rfl⟩ := closeReturn_cases ht
    exact .closed k nofun hx

theorem Phase.step (h : Phase s) (hc : s.Harmless e) (ht : s.step e = some t) : Phase t := by
  cases e with
  | send =>
    cases h with
    | transfer n j =>
      obtain rfl := Option.some.inj ht
      simpa [List.replicate_succ'] using Phase.transfer (n + 1) j
    | _ => cases ht
  | close =>
    cases h with
    | transfer n j =>
      obtain rfl := Option.some.inj ht
      exact .finSent n 0 j (Or.inl ⟨rfl, rfl⟩)
    | _ => cases ht
  | closeStatus => exact h.closeStatus_step ht
  | closeReturn => exact h.closeReturn_step ht
  | client resend => exact h.client_step hc ht
  | server resend => exact h.server_step ht
  | skip =>
    cases ht
    exact h

lemma Awaits.ne_synsent {close : ClosePc} {x : Status} (h : Awaits close x) : x ≠ .synsent := by
  rcases h with ⟨rfl, rfl⟩ | ⟨rfl, rfl | rfl⟩ <;> nofun

lemma Phase.ne_synsent (h : Phase s) : s.client ≠ .synsent ∧ s.server ≠ .synsent := by
  cases h with
  | transfer => exact ⟨nofun, nofun⟩
  | finSent n m j hw | answered m j k hw | finNext m k hw hmore => exact ⟨hw.ne_synsent, nofun⟩
  | acked m k hclose hx | closed k hclose hx => rcases hx with rfl | ⟨rfl, -⟩ <;> exact ⟨nofun, nofun⟩

/-- When nothing is left to do after the client has called `close`, both ends are done. -/
theorem Phase.done (h : Phase s) (hclose : s.close ≠ none) (hserver : s.toServer = [])
    (hclient : s.toClient = []) : s.client = .timewait ∧ s.server = .closed := by
  cases h with
  | transfer => exact absurd rfl hclose
  | finSent n m j hw => simp at hserver
  | answered m j k hw => simp at hclient
  | finNext m k hw hmore => cases hclient
  | acked m k hclose hx => simp at hserver
  | closed k hclose hx =>
    rcases hx with rfl | ⟨-, hk⟩
    · exact ⟨rfl, rfl⟩
    · exact absurd (List.replicate_eq_nil_iff _ |>.mp hclient) hk

/-! ### The condition is exact -/

/-- The client is never in TIMEWAIT any more: no FIN is on its way to it and it is not in CLOSING; or
the FIN of the server is all that is on its way, and will put it into CLOSING or be taken for one on
an open connection; or it is in CLOSING and no ACK comes any more. -/
inductive Lost : Teardown → Prop
  | noFin {s : Teardown} : s.client ∈ [Status.lastack, .closed, .finwait1, .finwait2] →
      s.server ∈ [Status.lastack, .closed] → (∀ k ∈ s.toClient, k = .ack) → s.close ≠ none → Lost s
  | lastFin {close x} : Awaits close x → x ≠ .finwait2 → Lost ⟨x, .lastack, some close, [], [.fin]⟩
  | closing {y close} (l : List Kind) : y ∈ [Status.lastack, .closed] → (∀ k ∈ l, k = .ack) →
      close ≠ .finSent → Lost ⟨.closing, y, some close, l, []⟩

/-- A step that is not harmless loses the end of the connection. -/
lemma Phase.lost (h : Phase s) (hc : ¬s.Harmless e) (ht : s.step e = some t) : Lost t := by
  cases e with
  | client resend =>
    simp only [Harmless, Classical.not_imp, not_and_or, not_not, ne_eq] at hc
    obtain ⟨hclose, hc⟩ := hc
    cases h with
    | transfer => cases hclose
    | finSent n m j hw =>
      rcases hc with hc | ⟨hc, -⟩
      · cases j <;> simp [List.replicate_succ] at hc
      · rcases j with _ | _ | j <;> simp [List.replicate_succ] at hc
    | answered m j k hw =>
      rcases j with _ | _ | j
      · rcases hc with hc | ⟨-, hresend⟩
        · cases hc
        · simp only [not_or, not_not, List.replicate_zero, List.nil_append, List.tail_cons,
            List.replicate_eq_nil_iff] at hresend
          obtain ⟨hresend, rfl, rfl⟩ := hresend
          obtain rfl := Option.some.inj hclose
          rcases hw with ⟨-, rfl⟩ | ⟨hspin, -⟩
          · obtain rfl := Option.some.inj ht
            rw [Bool.eq_false_iff.mpr hresend]
            exact .lastFin (Or.inl ⟨rfl, rfl⟩) nofun
          · cases hspin
      · rcases hc with hc | ⟨hc, -⟩ <;> cases hc
      · rcases hc with hc | ⟨hc, -⟩ <;> cases hc
    | finNext m k hw hmore =>
      obtain rfl := Option.some.inj hclose
      rcases hw with ⟨-, rfl⟩ | ⟨hspin, -⟩
      · obtain rfl := Option.some.inj ht
        exact .noFin (by simp [react]) (by simp) (fun k hk => List.eq_of_mem_replicate hk) nofun
      · cases hspin
    | acked m k hne hx => exact absurd (Option.some.inj hclose) hne
    | closed k hne hx => exact absurd (Option.some.inj hclose) hne
  | _ => exact absurd trivial hc

lemma Lost.step (h : Lost s) (ht : s.step e = some t) : Lost t := by
  cases h with
  | noFin hclient hserver hacks hclose =>
    cases e with
    | send | close =>
      simp only [Teardown.step, if_neg hclose] at ht
      cases ht
    | closeStatus =>
      obtain ⟨-, rfl⟩ := closeStatus_cases ht
      exact .noFin (by simp) hserver hacks nofun
    | closeReturn =>
      obtain ⟨-, rfl⟩ := closeReturn_cases ht
      exact .noFin hclient hserver hacks nofun
    | client resend =>
      obtain ⟨k, rest, hlist, rfl⟩ := client_cases ht
      rw [hlist] at hacks
      obtain rfl := hacks k List.mem_cons_self
      refine .noFin ?_ hserver (fun k hk => hacks k (List.mem_cons_of_mem _ hk)) hclose
      simp only [List.mem_cons, List.not_mem_nil, or_false] at hclient
      rcases hclient with h | h | h | h <;> simp [h, react]
    | server resend =>
      obtain ⟨k, rest, -, rfl⟩ := server_cases ht
      simp only [List.mem_cons, List.not_mem_nil, or_false] at hserver
      refine .noFin hclient ?_ ?_ hclose
      · rcases hserver with h | h <;> cases k <;> simp [h, react]
      · have hreply : ∀ k' ∈ (react s.server k resend).2, k' = .ack := by
          rcases hserver with h | h <;> cases k <;> simp [h, react]
        exact List.forall_mem_append.mpr ⟨hacks, hreply⟩
    | skip =>
      obtain rfl := Option.some.inj ht
      exact .noFin hclient hserver hacks hclose
  | lastFin hw hx =>
    have hsome := hw
    rcases hw with ⟨rfl, rfl⟩ | ⟨rfl, rfl | rfl⟩
    -- the FIN is taken for one on an open connection
    · cases e with
      | closeStatus =>
        obtain rfl := Option.some.inj ht
        exact .lastFin (Or.inr ⟨rfl, Or.inl rfl⟩) nofun
      | client resend =>
        obtain rfl := Option.some.inj ht
        exact .noFin (by simp [react]) (by simp) nofun nofun
      | skip =>
        obtain rfl := Option.some.inj ht
        exact .lastFin hsome nofun
      | send | close | closeReturn | server resend => cases ht
    -- the FIN puts the client into CLOSING
    · cases e with
      | client resend =>
        obtain rfl := Option.some.inj ht
        exact .closing [.ack] (by simp) (by simp) nofun
      | skip =>
        obtain rfl := Option.some.inj ht
        exact .lastFin hsome nofun
      | send | close | closeStatus | closeReturn | server resend => cases ht
    · exact absurd rfl hx
  | closing l hserver hacks hclose =>
    cases e with
    | send | close | client resend => cases ht
    | closeStatus =>
      obtain ⟨hfin, rfl⟩ := closeStatus_cases ht
      exact absurd (Option.some.inj hfin) hclose
    | closeReturn =>
      obtain ⟨-, rfl⟩ := closeReturn_cases ht
      exact .closing l hserver hacks nofun
    | server resend =>
      cases l with
      | nil => cases ht
      | cons k l =>
        obtain rfl := Option.some.inj ht
        obtain rfl := hacks k List.mem_cons_self
        simp only [List.mem_cons, List.not_mem_nil, or_false] at hserver
        rcases hserver with rfl | rfl
        · exact .closing l (by simp [react]) (fun k hk => hacks k (List.mem_cons_of_mem _ hk)) hclose
        · exact .closing l (by simp [react]) (fun k hk => hacks k (List.mem_cons_of_mem _ hk)) hclose
    | skip =>
      obtain rfl := Option.some.inj ht
      exact .closing l hserver hacks hclose

lemma Lost.ne_synsent (h : Lost s) : s.client ≠ .synsent ∧ s.server ≠ .synsent := by
  cases h with
  | noFin hclient hserver =>
    constructor
    · intro hst
      simp [hst] at hclient
    · intro hst
      simp [hst] at hserver
  | lastFin hw hx => exact ⟨hw.ne_synsent, nofun⟩
  | closing l hserver =>
    refine ⟨nofun, ?_⟩
    rintro rfl
    simp at hserver

lemma Lost.ne_timewait (h : Lost s) : s.client ≠ .timewait := by
  cases h with
  | noFin hx =>
    intro hst
    simp [hst] at hx
  | lastFin hw hx =>
    rcases hw with ⟨rfl, rfl⟩ | ⟨rfl, rfl | rfl⟩ <;> nofun
  | closing => nofun

end Teardown

end ITCP
