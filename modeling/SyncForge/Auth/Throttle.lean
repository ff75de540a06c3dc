import SyncForge.Auth.Rotation

/-!
# `Auth.Throttle` — how many logins get through

`loginThrottled` counts the requests of a minute under the text of `RemoteAddr`, which is the client's address
and its port: a client that opens another connection is counted anew. One connection gets no more requests
through in a minute than configured (`throttled_per_connection`).
-/

namespace SyncForge.Auth

open Effect Effect.Prog

/-- A login request as the server receives it: `RemoteAddr` is the address and the port of the client's
    end. -/
structure Arrival where
  ip : String
  port : Nat
  now : Time

def Arrival.clientIP (r : Arrival) : String := r.ip ++ ":" ++ toString r.port

/-- Does the request pass `loginThrottled`? -/
def arrive (env : Env) (s : State) (r : Arrival) : Bool × State :=
  let out := (loginThrottled env r.clientIP).run (State.handle env) { s with now := r.now }
  (match out.1 with | .ok throttled => !throttled | .error _ => false, out.2)

/-- How many of the requests that `p` selects pass. -/
def admitted (env : Env) (p : Arrival → Bool) : List Arrival → State → Nat
  | [], _ => 0
  | r :: rs, s => (if p r ∧ (arrive env s r).1 then 1 else 0) + admitted env p rs (arrive env s r).2

variable {env : Env} {s : State} {addr : String} {start : Time} {n : Int}

abbrev counterKey (addr : String) : String := "login:throttle:" ++ addr

/-- Since `start` the counter of the address has counted to `n`, and it stays for a minute from then at
    least. -/
def Counted (addr : String) (start : Time) (n : Int) (s : State) : Prop :=
  (∀ k, s.tape k = none) ∧
    (n = 0 ∧ (∀ c ∈ s.counters (counterKey addr), ∃ e ∈ c.expiresAt, e ≤ start) ∨
      0 < n ∧ ∃ e, s.counters (counterKey addr) = some ⟨n, some e⟩ ∧ start + 60000000000 ≤ e)

/-- **One request**: the counter goes up, and a new one gets its expiry. -/
theorem run_loginThrottled (hlimit : 0 < env.config.loginThrottlePerMin) (hcache : env.config.cache = true)
    (htape : ∀ k, s.tape k = none) : ∃ s', (loginThrottled env addr).run (State.handle env) s =
        (.ok (decide (env.config.loginThrottlePerMin < (s.incremented (counterKey addr)).count)), s') ∧ s'.tape = s.tape ∧
      s'.counters = Function.update s.counters (counterKey addr)
        (some (if (s.incremented (counterKey addr)).count = 1 then
          { s.incremented (counterKey addr) with expiresAt := some (s.now + 60000000000) } else s.incremented (counterKey addr))) := by
  have hon : ¬ (env.config.loginThrottlePerMin ≤ 0 ∨ env.config.cache = false) := by
    rw [hcache]
    rintro (h | h)
    · omega
    · cases h
  unfold loginThrottled
  rw [if_neg hon, run_bind, run_attempt, run_perform]
  simp only [State.handle, htape]
  by_cases hone : (s.incremented (counterKey addr)).count = 1
  · rw [if_pos hone, if_pos hone, run_bind, run_attempt, run_perform]
    simp only [State.handle, State.called, htape, run_return]
    refine ⟨_, rfl, rfl, ?_⟩
    rw [Function.update_idem, Function.update_self]
    rfl
  · rw [if_neg hone, if_neg hone]
    exact ⟨_, rfl, rfl, rfl⟩

theorem counted_incremented (h : Counted addr start n s) (hfrom : start ≤ s.now)
    (huntil : s.now < start + 60000000000) : (s.incremented (counterKey addr)).count = n + 1 ∧
      (n ≠ 0 → ∃ e, s.incremented (counterKey addr) = ⟨n + 1, some e⟩ ∧ start + 60000000000 ≤ e) := by
  unfold State.incremented
  rcases h.2 with ⟨rfl, hgone⟩ | ⟨hpos, e, hc, he⟩
  · refine ⟨?_, fun h => absurd rfl h⟩
    cases hc : s.counters (counterKey addr) with
    | none => rfl
    | some c =>
      obtain ⟨e, he, hle⟩ := hgone c hc
      exact congrArg Counter.count (if_pos ⟨e, he, hle.trans hfrom⟩)
  · have hlive : ¬ ∃ at_ ∈ (some e : Option Time), at_ ≤ s.now := by
      rintro ⟨at_, hat, hle⟩
      rw [Option.mem_some_iff.mp hat] at he
      exact absurd (huntil.trans_le he) (not_lt.mpr hle)
    rw [hc]
    show (ite _ _ _ : Counter).count = _ ∧ _
    rw [if_neg hlive]
    exact ⟨rfl, fun _ => ⟨e, if_neg hlive, he⟩⟩

section

variable (hlimit : 0 < env.config.loginThrottlePerMin) (hcache : env.config.cache = true)
include hlimit hcache

theorem counted_run (h : Counted addr start n s) (hfrom : start ≤ s.now)
    (huntil : s.now < start + 60000000000) : ∃ s', (loginThrottled env addr).run (State.handle env) s
      = (.ok (decide (env.config.loginThrottlePerMin < n + 1)), s') ∧ Counted addr start (n + 1) s' := by
  obtain ⟨s', hrun, htape, hcounters⟩ := @run_loginThrottled env s addr hlimit hcache h.1
  obtain ⟨hcount, hkept⟩ := counted_incremented h hfrom huntil
  rw [hcount] at hrun hcounters
  have hkey := congrFun hcounters (counterKey addr)
  rw [Function.update_self] at hkey
  have hpos : 0 ≤ n := h.2.elim (fun h => h.1.ge) (fun h => h.1.le)
  refine ⟨s', hrun, fun k => htape ▸ h.1 k, .inr ⟨by omega, ?_⟩⟩
  by_cases hn : n = 0
  · rw [if_pos (by omega)] at hkey
    exact ⟨_, hkey.trans (congrArg some (congrArg (Counter.mk · _) hcount)), add_le_add hfrom le_rfl⟩
  · obtain ⟨e, he, hle⟩ := hkept hn
    rw [if_neg (by omega), he] at hkey
    exact ⟨e, hkey, hle⟩

theorem counted_other {other : String} (h : Counted addr start n s) (hne : other ≠ addr) :
    Counted addr start n ((loginThrottled env other).run (State.handle env) s).2 := by
  obtain ⟨s', hrun, htape, hcounters⟩ := @run_loginThrottled env s other hlimit hcache h.1
  have hkey : counterKey addr ≠ counterKey other := fun heq => hne ((String.append_right_inj _).mp heq).symm
  have hsame : s'.counters (counterKey addr) = s.counters (counterKey addr) := by
    rw [hcounters, Function.update_of_ne hkey]
  rw [hrun]
  refine ⟨fun k => htape ▸ h.1 k, ?_⟩
  rw [hsame]
  exact h.2

/-- **Run lemma**: of the requests of one connection those pass for which the counter has room. -/
theorem counted_admitted {rs : List Arrival}
    (hwindow : ∀ r ∈ rs, r.clientIP = addr → start ≤ r.now ∧
      r.now < start + 60000000000) (h : Counted addr start n s) :
      (admitted env (fun r => r.clientIP = addr) rs s : Int)
      ≤ max 0 (env.config.loginThrottlePerMin - n) := by
  induction rs generalizing s n with
  | nil => exact le_max_left _ _
  | cons r rs ih =>
    obtain ⟨hr, hrs⟩ := List.forall_mem_cons.mp hwindow
    have hnow : Counted addr start n { s with now := r.now } := h
    by_cases haddr : r.clientIP = addr
    · obtain ⟨s', hrun, h'⟩ := counted_run hlimit hcache hnow (hr haddr).1 (hr haddr).2
      have hadmit : arrive env s r = (!decide (env.config.loginThrottlePerMin < n + 1), s') := by
        unfold arrive
        rw [haddr, hrun]
      have hrest := ih hrs h'
      rw [admitted, hadmit]
      by_cases hpass : env.config.loginThrottlePerMin < n + 1
      · simp only [hpass, decide_true, Bool.not_true, Bool.false_eq_true, and_false, if_false, zero_add]
        omega
      · simp only [hpass, haddr, decide_true, decide_false, Bool.not_false, and_self, if_true, Nat.cast_add, Nat.cast_one]
        omega
    · have hrest := ih hrs (counted_other hlimit hcache hnow haddr)
      rw [admitted, if_neg (fun hp => haddr (of_decide_eq_true hp.1)), zero_add]
      exact hrest

end

/-- **One connection** gets no more requests through in a minute than configured, whatever other clients
    send. -/
theorem throttled_per_connection (hlimit : 0 < env.config.loginThrottlePerMin)
    (hcache : env.config.cache = true)
    (htape : ∀ k, s.tape k = none) (hgone : ∀ c ∈ s.counters (counterKey addr), ∃ e ∈ c.expiresAt, e ≤ start)
      {rs : List Arrival}
    (hwindow : ∀ r ∈ rs, r.clientIP = addr → start ≤ r.now ∧ r.now < start + 60000000000) :
    (admitted env (fun r => r.clientIP = addr) rs s : Int) ≤ env.config.loginThrottlePerMin := by
  have hbound := counted_admitted hlimit hcache hwindow (n := 0) ⟨htape, .inl ⟨rfl, hgone⟩⟩
  omega

theorem admitted_mono {p q : Arrival → Bool} {rs : List Arrival} (h : ∀ r ∈ rs, p r → q r) :
    admitted env p rs s ≤ admitted env q rs s := by
  induction rs generalizing s with
  | nil => rfl
  | cons r rs ih =>
    refine Nat.add_le_add ?_ (ih (fun r' hr' => h r' (List.mem_cons_of_mem _ hr')))
    by_cases hr : p r ∧ (arrive env s r).1
    · rw [if_pos hr, if_pos ⟨h r List.mem_cons_self hr.1, hr.2⟩]
    · rw [if_neg hr]
      exact Nat.zero_le _

/-- **One address**: the bound holds for it if its requests share a port. -/
theorem throttled_of_port {ip : String} {port : Nat} (hlimit : 0 < env.config.loginThrottlePerMin)
    (hcache : env.config.cache = true) (htape : ∀ k, s.tape k = none)
    (hgone : ∀ c ∈ s.counters (counterKey (Arrival.clientIP ⟨ip, port, start⟩)), ∃ e ∈ c.expiresAt, e ≤ start)
    {rs : List Arrival} (hport : ∀ r ∈ rs, r.ip = ip → r.port = port)
    (hwindow : ∀ r ∈ rs, r.clientIP = Arrival.clientIP ⟨ip, port, start⟩ → start ≤ r.now ∧
      r.now < start + 60000000000) : (admitted env (fun r => r.ip = ip) rs s :
    Int) ≤ env.config.loginThrottlePerMin := by
  have hmono : admitted env (fun r => r.ip = ip) rs s
      ≤ admitted env (fun r => r.clientIP = Arrival.clientIP ⟨ip, port, start⟩) rs s := by
    refine admitted_mono (fun r hr hip => ?_)
    have hip := of_decide_eq_true hip
    refine decide_eq_true ?_
    unfold Arrival.clientIP
    rw [hip, hport r hr hip]
  have hbound := counted_admitted hlimit hcache hwindow (n := 0) ⟨htape, .inl ⟨rfl, hgone⟩⟩
  omega

def throttledEnv : Env := { officeEnv with config := { loginThrottlePerMin := 1 } }

theorem throttled_per_connection_two :
    (admitted throttledEnv (fun r => r.clientIP = "10.0.0.7:40001") [⟨"10.0.0.7", 40001, 5⟩,
      ⟨"10.0.0.7", 40001, 6⟩] office : Int) ≤ 1 :=
  @throttled_per_connection throttledEnv office _ 5 (by decide) rfl (fun _ => rfl)
    (fun _ h => nomatch h) _ (by
    intro r hr _
    rcases List.mem_cons.mp hr with rfl | hr
    · decide
    · rw [List.mem_singleton.mp hr]
      decide)

/-- **Two connections** of one address get a request through each, where one a minute is allowed. -/
theorem throttle_outrun : throttledEnv.config.loginThrottlePerMin = 1 ∧
    admitted throttledEnv (fun r => r.ip = "10.0.0.7") [⟨"10.0.0.7", 40001, 5⟩, ⟨"10.0.0.7", 40002, 5⟩] office
    = 2 := by
  decide +kernel

end SyncForge.Auth
