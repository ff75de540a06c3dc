import SyncForge.Deployment

/-!
# `Bridge.Settling` — how often the worker writes

A write that is still waiting when the next one is made to the same provider is no longer recognised, is taken
for an edit, and is written back to the other side. Three edits in the queue, alternating between the
providers, do this forever; if the queue stays in two blocks, `n` edits cause at most `n (4 n + 1)` writes.
-/

namespace SyncForge.Bridge

open Relay (Side)
open Transition
open Deployment (ann inSync link linked linked_shows)
open Function (update update_self)

/-! ## The bridge as a relay -/

section Abstract

variable (S : Setting)

def State.messages (s : State) : List (Side × String) :=
  s.pending.map (fun n => (n.side, fingerprintOf S.hash n.values))

def State.HeadFirst (s : State) : Act → Prop
  | .handle x => s.pending.head?.map Note.side = some x
  | _ => True

def State.EditWaits (s : State) : Act → Prop
  | .edit x _ => Relay.Open x (s.messages S)
  | _ => True

def Act.isEdit : Act → Bool
  | .edit _ _ => true
  | _ => false

variable {S} {s s' : State} {x : Side} {n start edits : Nat}

theorem step_handle_head (hhead : s.HeadFirst (.handle x)) (h : step S s (.handle x) = some s') :
    ∃ n rest, s.pending = n :: rest ∧ n.side = x ∧ s' = ({ s with pending := rest } : State).handle S n := by
  obtain ⟨n, hn, hside⟩ := Option.map_eq_some_iff.mp hhead
  obtain ⟨rest, hrest⟩ : ∃ rest, s.pending = n :: rest := by
    cases hp : s.pending with
    | nil =>
      rw [hp] at hn
      cases hn
    | cons m rest =>
      rw [hp] at hn
      exact ⟨rest, by rw [Option.some.inj hn]⟩
  have hfrom : isFrom x n = true := decide_eq_true hside
  refine ⟨n, rest, hrest, hside, ?_⟩
  have hstep : step S s (.handle x) = some (({ s with pending := rest } : State).handle S n) := by
    show (s.pending.find? (isFrom x)).map _ = _
    rw [hrest, List.find?_cons_of_pos hfrom, List.eraseP_cons_of_pos hfrom]
    rfl
  rw [h] at hstep
  exact Option.some.inj hstep

structure Budget (S : Setting) (n start edits : Nat) (s : State) : Prop where
  ordered : Relay.Ordered (s.messages S)
  length_le : s.pending.length ≤ edits
  spent : s.writes.length + Relay.potential n s.lastWritten (s.messages S) ≤ start + edits * (4 * n + 1)

theorem messages_length : (s.messages S).length = s.pending.length := List.length_map _

theorem Budget.edit {v : Values} (h : Budget S n start edits s) (hn : edits + 1 ≤ n)
    (hopen : Relay.Open x (s.messages S)) : Budget S n start (edits + 1) (s.write x v) := by
  have hmsg : (s.write x v).messages S = s.messages S ++ [(x, fingerprintOf S.hash v)] := by
    show List.map _ (s.pending ++ [_]) = _
    rw [List.map_append]
    rfl
  have hlen := h.length_le
  have hspent := h.spent
  refine ⟨?_, ?_, ?_⟩
  · rw [hmsg]
    exact hopen.ordered _
  · show (s.pending ++ [_]).length ≤ edits + 1
    rw [List.length_append, List.length_singleton]
    omega
  · have hpost := Relay.potential_post s.lastWritten (x, fingerprintOf S.hash v)
      (show (s.messages S).length + 1 ≤ n by rw [messages_length]; omega)
    rw [hmsg]
    show s.writes.length + Relay.potential n s.lastWritten _ ≤ _
    rw [Nat.add_mul, Nat.one_mul]
    omega

theorem Budget.handle {m : Note} {rest : List Note} (h : Budget S n start edits s) (hn : edits ≤ n)
    (hpending : s.pending = m :: rest) : Budget S n start edits
    (({ s with pending := rest } : State).handle S m) := by
  have hmsg : s.messages S
      = (m.side, fingerprintOf S.hash m.values) :: rest.map (fun n => (n.side, fingerprintOf S.hash n.values)) := by
    rw [State.messages, hpending]
    rfl
  have hordered := h.ordered
  have hlen := h.length_le
  have hspent := h.spent
  rw [hmsg] at hordered hspent
  rw [hpending, List.length_cons] at hlen
  unfold State.handle
  split_ifs with hdrop
  · refine ⟨hordered.tail, by show rest.length ≤ edits; omega, ?_⟩
    have hpot := Relay.potential_drop s.lastWritten (m.side, fingerprintOf S.hash m.values)
      (show (rest.map (fun n => (n.side, fingerprintOf S.hash n.values))).length + 1 ≤ n by
        rw [List.length_map]; omega)
    show s.writes.length + Relay.potential n s.lastWritten (rest.map _) ≤ _
    omega
  · -- the note is no echo, so its answer is paid for by the potential
    have hnew : s.lastWritten m.side ≠ some (fingerprintOf S.hash m.values) :=
      fun hecho => hdrop (.inr (.inr hecho))
    let merged : Values := fun f => (({ s with pending := rest } : State).mergeNote S m f).1
    have hmsg' : (({ s with pending := rest } : State).apply S m).messages S
        = rest.map (fun n => (n.side, fingerprintOf S.hash n.values))
          ++ [(m.side.other, fingerprintOf S.hash merged)] := by
      show List.map _ (rest ++ [_]) = _
      rw [List.map_append]
      rfl
    have hpot := Relay.potential_answer hordered hnew (fingerprintOf S.hash merged) n
    refine ⟨?_, ?_, ?_⟩
    · rw [hmsg']
      exact hordered.answer _
    · show (rest ++ [_]).length ≤ edits
      rw [List.length_append, List.length_singleton]
      omega
    · rw [hmsg']
      show (s.writes ++ [m.side.other]).length + Relay.potential n
        (update s.lastWritten m.side.other (some (fingerprintOf S.hash merged))) _ ≤ _
      rw [List.length_append, List.length_singleton]
      omega

/-- **Edits that wait**: each brings a bounded number of writes. -/
theorem budget_run {as : List Act} (h : Run (step S) (fun s a => s.HeadFirst a ∧ s.EditWaits S a) s as s')
    (hpending : s.pending = []) (hn : as.countP Act.isEdit ≤ n) :
    Budget S n s.writes.length (as.countP Act.isEdit) s' := by
  have hinit : Budget S n s.writes.length 0 s := by
    have hmsg : s.messages S = [] := by
      rw [State.messages, hpending]
      rfl
    refine ⟨?_, ?_, ?_⟩
    · rw [hmsg]
      exact Relay.ordered_nil
    · rw [hpending]
      exact le_rfl
    · rw [hmsg]
      simp [Relay.potential, Relay.rank, Relay.lead]
  refine h.invariant 
    (P := fun as t => as.countP Act.isEdit ≤ n → Budget S n s.writes.length (as.countP Act.isEdit) t)
    (fun _ => hinit) ?_ hn
  intro as t a u hbudget hok hstep hn
  rw [List.countP_append] at hn ⊢
  cases a with
  | edit x v =>
    cases hstep
    exact (hbudget (Nat.le_of_add_right_le hn)).edit hn hok.2
  | handle x =>
    obtain ⟨m, rest, hrest, _, rfl⟩ := step_handle_head hok.1 hstep
    exact (hbudget hn).handle hn hrest
  | tick x d =>
    cases hstep
    have hb := hbudget hn
    exact ⟨hb.ordered, hb.length_le, hb.spent⟩

end Abstract

/-! ## Bounded writes -/

section Bounded

variable {env : Env} {L : Link env} {w w' : World} {s : State} {d : Deed} {a : Act}

def InOrder (L : Link env) (w : World) : Deed → Prop
  | .handle x => w.outbox.head?.map Event.source = some (L.name x)
  | _ => True

def EditWaits (L : Link env) (w : World) : Deed → Prop
  | .edit x _ => w.outbox.Pairwise (fun ev ev' => ev.source = L.name x → ev'.source = L.name x)
  | _ => True

def Deed.isEdit : Deed → Bool
  | .edit _ _ => true
  | _ => false

theorem Deed.Matches.isEdit_eq (h : d.Matches a) : d.isEdit = a.isEdit := by
  cases d <;> cases a <;> first | rfl | cases h

theorem countP_isEdit {ds : List Deed} {as : List Act} (h : List.Forall₂ Deed.Matches ds as) :
    ds.countP Deed.isEdit = as.countP Act.isEdit := by
  induction h with
  | nil => rfl
  | cons hd _ ih => rw [List.countP_cons, List.countP_cons, ih, hd.isEdit_eq]

theorem Shows.headFirst (h : Shows L w s) (hd : d.Matches a) (hok : InOrder L w d) : s.HeadFirst a := by
  cases d <;> cases a <;> first | trivial | cases hd
  rename_i x
  -- the head of the outbox is the webhook of the head of the queue
  have hheads := congrArg List.head? h.sources
  rw [List.head?_map, List.head?_map] at hheads
  have hname : s.pending.head?.map (fun n => L.name n.side) = some (L.name x) := hheads.symm.trans hok
  show s.pending.head?.map Note.side = some x
  cases hp : s.pending.head? with
  | none =>
    rw [hp] at hname
    cases hname
  | some n =>
    rw [hp] at hname
    rw [Option.map_some, L.name_injective (Option.some.inj hname)]

theorem Shows.editWaits (h : Shows L w s) (hd : d.Matches a) (hok : EditWaits L w d) :
    s.EditWaits L.setting a := by
  cases d <;> cases a <;> first | trivial | cases hd
  rename_i x data v
  have hsources : (w.outbox.map Event.source).Pairwise (fun p q => p = L.name x → q = L.name x) :=
    List.pairwise_map.mpr hok
  rw [h.sources, List.pairwise_map] at hsources
  show ((s.pending.map _).Pairwise _)
  rw [List.pairwise_map]
  refine hsources.imp ?_
  intro m m' hm hx
  exact L.name_injective (hm (congrArg L.name hx))

theorem Shows.inOrder (h : Shows L w s) (ha : s.HeadFirst a) : InOrder L w (a.deed L) := by
  cases a <;> try trivial
  rename_i x
  have hheads := congrArg List.head? h.sources
  rw [List.head?_map, List.head?_map] at hheads
  obtain ⟨n, hn, hside⟩ := Option.map_eq_some_iff.mp ha
  show w.outbox.head?.map Event.source = some (L.name x)
  rw [hheads, hn, ← hside]
  rfl

/-- **Bounded writes.** Two providers with policies both ways, one worker that handles every webhook in the
    order they were sent, nothing under way at the start: with at most `n` edits, each made while no webhook
    of its provider waits in front of one of the other's, the worker writes at most `n (4 n + 1)` times. -/
theorem writes_bounded (n : Nat) (h : Shows L w s) (hquiet : w.outbox = []) {ds : List Deed}
    (hrun : Run (next L) (fun w d => InOrder L w d ∧ EditWaits L w d) w ds w')
    (hn : ds.countP Deed.isEdit ≤ n) : w'.mutations.length ≤ w.mutations.length + n * (4 * n + 1) := by
  have hpending : s.pending = [] := h.quiet.mp hquiet
  have hsim : ∀ w d u t, Shows L w t → InOrder L w d ∧ EditWaits L w d → next L w d = some u →
      ∃ a v, d.Matches a ∧ (t.HeadFirst a ∧ t.EditWaits L.setting a) ∧ step L.setting t a = some v ∧
        Shows L u v := by
    intro w d u t ht hok hd
    obtain ⟨a, t', hda, ha, hu⟩ := ht.next hd
    exact ⟨a, t', hda, ⟨ht.headFirst hda hok.1, ht.editWaits hda hok.2⟩, ha, hu⟩
  obtain ⟨as, s', has, hruns, hshows⟩ := Run.simulate hsim hrun h
  rw [countP_isEdit has] at hn
  have hbudget := budget_run hruns hpending hn
  have hlen : w.mutations.length = s.writes.length := by rw [h.mutations, List.length_map]
  calc w'.mutations.length = s'.writes.length := by rw [hshows.mutations, List.length_map]
    _ ≤ s.writes.length + as.countP Act.isEdit * (4 * n + 1) := le_trans (Nat.le_add_right _ _) hbudget.spent
    _ ≤ w.mutations.length + n * (4 * n + 1) := by
      rw [hlen]
      exact Nat.add_le_add_left (Nat.mul_le_mul_right _ hn) _

def annAt (company : String) : Values := update ann .company company

theorem valid_annAt (company : String) : Valid (annAt company) :=
  valid_update (show Valid ann by decide) (by decide) company

theorem writes_bounded_ann : ∃ ds w', ds.countP Deed.isEdit = 1 ∧
      Run (next (link false)) (fun w d => InOrder (link false) w d ∧ EditWaits (link false) w d) (linked false) ds w' ∧
      w'.mutations.length ≤ (linked false).mutations.length + 1 * (4 * 1 + 1) := by
  have h := linked_shows false
  obtain ⟨w1, h1, hs1⟩ := h.act (a := .edit .a (annAt "x")) rfl
  obtain ⟨w2, h2, hs2⟩ := hs1.act (a := .handle .a) rfl
  obtain ⟨w3, h3, _⟩ := hs2.act (a := .handle .b) rfl
  have hrun : Run (next (link false)) (fun w d => InOrder (link false) w d ∧
      EditWaits (link false) w d) (linked false)
      [Act.deed _ (.edit .a (annAt "x")), Act.deed _ (.handle .a), Act.deed _ (.handle .b)] w3 :=
    .head ⟨trivial, List.Pairwise.nil⟩ h1 (.head ⟨hs1.inOrder rfl, trivial⟩ h2
      (.head ⟨hs2.inOrder rfl, trivial⟩ h3 .refl))
  exact ⟨_, w3, rfl, hrun, writes_bounded 1 h rfl hrun le_rfl⟩

end Bounded

/-! ## Endless writes -/

section Spin

variable {S : Setting} {s : State} {x : Side} {n1 n2 n3 : Note}

/-- Three different notes in the queue, alternating between the providers, each later than the one before and
    later than every owner of a field, and the first of them not recognised. -/
structure Spin (S : Setting) (s : State) (x : Side) (n1 n2 n3 : Note) : Prop where
  pending : s.pending = [n1, n2, n3]
  side1 : n1.side = x
  side2 : n2.side = x.other
  side3 : n3.side = x
  valid : ∀ n ∈ s.pending, Valid n.values
  differ12 : fingerprintOf S.hash n1.values ≠ fingerprintOf S.hash n2.values
  differ23 : fingerprintOf S.hash n2.values ≠ fingerprintOf S.hash n3.values
  differ31 : fingerprintOf S.hash n3.values ≠ fingerprintOf S.hash n1.values
  unrecognised : s.lastWritten x ≠ some (fingerprintOf S.hash n1.values)
  later : ∀ f p, s.provenance f = some p → p.occurredAt < n1.occurredAt
  later12 : n1.occurredAt < n2.occurredAt
  later23 : n2.occurredAt < n3.occurredAt
  fresh1 : s.sourceVersion x < n1.version
  fresh2 : s.sourceVersion x.other < n2.version
  newer13 : n1.version < n3.version
  held3 : n3.version ≤ (s.held x).version
  held2 : n2.version ≤ (s.held x.other).version

/-- **One turn.** The first note is taken over and written to the other provider, whose note closes the queue:
    the same three contents again, with the providers' roles exchanged. -/
theorem Spin.turn (h : Spin S s x n1 n2 n3) :
    ∃ d s' n4, Run (step S) State.HeadFirst s [.tick x.other d, .handle x] s' ∧ Spin S s' x.other n2 n3 n4 ∧
      s'.writes.length = s.writes.length + 1 := by
  -- the clock of the provider that is written passes the last note's time
  let d : Nat := (n3.occurredAt - s.clock x.other).toNat + 1
  let s1 : State := { s with clock := update s.clock x.other (s.clock x.other + d) }
  let s2 : State := { s1 with pending := [n2, n3] }
  let n4 : Note := ⟨x.other, (s.held x.other).version + 1, s1.clock x.other, n1.values⟩
  have hclock : n3.occurredAt < s1.clock x.other := by
    have hpass : ∀ a b : Int, a < b + (((a - b).toNat + 1 : Nat) : Int) := by
      intro a b
      omega
    show _ < update s.clock x.other _ x.other
    rw [update_self]
    exact hpass _ _
  have hvalid1 : Valid n1.values := h.valid n1 (by rw [h.pending]; simp)
  have hhandle : step S s1 (.handle x) = some (s2.taken S x n1) := by
    have hfrom : isFrom x n1 = true := decide_eq_true h.side1
    show (s.pending.find? (isFrom x)).map _ = _
    rw [h.pending, List.find?_cons_of_pos hfrom, List.eraseP_cons_of_pos hfrom]
    refine congrArg some (State.handle_eq_taken h.side1 hvalid1 h.fresh1 h.unrecognised ?_)
    exact fun f p hp => .inr (h.later f p hp)
  have hhead : s1.HeadFirst (.handle x) := by
    show s.pending.head?.map Note.side = some x
    rw [h.pending]
    exact congrArg some h.side1
  refine ⟨d, s2.taken S x n1, n4, Run.tail (Run.single trivial rfl) hhead hhandle, ?_, ?_⟩
  · refine ⟨rfl, h.side2, by rw [h.side3, Side.other_other], rfl, ?_, h.differ23, h.differ31, h.differ12, ?_, ?_,
      h.later23, hclock, ?_, ?_, ?_, ?_, ?_⟩
    · intro n hn
      have hcases : n ∈ s.pending ∨ n = n4 := by
        have hn' : n ∈ [n2, n3, n4] := hn
        rw [h.pending]
        simp only [List.mem_cons, List.not_mem_nil, or_false] at hn' ⊢
        tauto
      rcases hcases with hmem | rfl
      · exact h.valid n hmem
      · exact hvalid1
    · show update s.lastWritten x.other _ x.other ≠ _
      rw [update_self]
      exact fun heq => h.differ12 (Option.some.inj heq)
    · intro f p hp
      rw [← Option.some.inj hp]
      exact h.later12
    · show update s.sourceVersion x _ x.other < _
      rw [Function.update_of_ne x.other_ne]
      exact h.fresh2
    · show update s.sourceVersion x _ x.other.other < _
      rw [Side.other_other, update_self]
      exact h.newer13
    · show n2.version < (s.held x.other).version + 1
      have := h.held2
      omega
    · exact le_of_eq (congrArg Held.version (s2.held_write_self x.other n1.values)).symm
    · show n3.version ≤ ((s2.write x.other n1.values).held x.other.other).version
      rw [Side.other_other, s2.held_write_ne _ x.ne_other]
      exact h.held3
  · show (s.writes ++ [x.other]).length = s.writes.length + 1
    rw [List.length_append, List.length_singleton]

theorem Spin.turns (h : Spin S s x n1 n2 n3) (N : Nat) :
    ∃ as s', Run (step S) State.HeadFirst s as s' ∧ as.countP Act.isEdit = 0 ∧
      s'.writes.length = s.writes.length + N := by
  induction N generalizing s x n1 n2 n3 with
  | zero => exact ⟨[], s, .refl, rfl, rfl⟩
  | succ N ih =>
    obtain ⟨d, s1, n4, hrun, hspin, hwrites⟩ := h.turn
    obtain ⟨as, s', hrun', hedits, hwrites'⟩ := ih hspin
    refine ⟨_, s', hrun.trans hrun', ?_, by omega⟩
    rw [List.countP_append, hedits]
    rfl

end Spin

/-! ## Endless writes of the worker -/

section Endless

variable {env : Env} {L : Link env} {w : World} {s s' : State}

theorem countP_deed (L : Link env) (as : List Act) :
    (as.map (Act.deed L)).countP Deed.isEdit = as.countP Act.isEdit := by
  rw [List.countP_map]
  congr 1
  funext a
  cases a <;> rfl

def threeEdits : List Act :=
  [.tick .a 1, .edit .a (annAt "x"), .tick .b 2, .edit .b (annAt "y"), .tick .a 2, .edit .a (annAt "z")]

theorem spin_after_edits (S : Setting) (hhash : S.hash = id) :
      ∃ s', Run (step S) State.HeadFirst inSync threeEdits s' ∧
      Spin S s' .a ⟨.a, 2, 2, annAt "x"⟩ ⟨.b, 2, 3, annAt "y"⟩ ⟨.a, 3, 4, annAt "z"⟩ := by
  refine ⟨_, .head trivial rfl (.head trivial rfl (.head trivial rfl (.head trivial rfl (.head trivial rfl
    (.head trivial rfl .refl))))), rfl, rfl, rfl, rfl, ?_, ?_, ?_, ?_, ?_, ?_, ?_, ?_, ?_, ?_, ?_, ?_, ?_⟩
  · intro n hn
    rcases List.mem_cons.mp hn with rfl | hn
    · exact valid_annAt _
    rcases List.mem_cons.mp hn with rfl | hn
    · exact valid_annAt _
    rw [List.mem_singleton.mp hn]
    exact valid_annAt _
  · rw [hhash]; decide
  · rw [hhash]; decide
  · rw [hhash]; decide
  · nofun
  · intro f p hp
    rw [← Option.some.inj hp]
    decide
  all_goals decide

/-- **The worker never stops writing** after three edits: whatever the number `N`, a run with these three
    edits reaches more than `N` writes. -/
theorem oscillates_forever : ∃ (env : Env) (L : Link env) (w : World) (s : State),
      (∀ x, (L.policy x).conflictStrategy = .lastWriteWins) ∧ Shows L w s ∧ w.outbox = [] ∧
      ∀ N, ∃ ds w', Run (next L) (InOrder L) w ds w' ∧ ds.countP Deed.isEdit = 3 ∧
        w.mutations.length + N ≤ w'.mutations.length := by
  have hshows := linked_shows false
  refine ⟨Deployment.env, link false, linked false, inSync,
    fun x => by cases x <;> rfl, hshows, rfl, fun N => ?_⟩
  obtain ⟨s1, hedits, hspin⟩ := spin_after_edits (link false).setting rfl
  obtain ⟨as, s2, hturns, hnone, hwrites⟩ := hspin.turns N
  obtain ⟨w', hrun, hshows'⟩ := Shows.realise (InOrder (link false)) (fun _ _ _ hs ha => hs.inOrder ha) hshows
    (hedits.trans hturns)
  refine ⟨_, w', hrun, ?_, ?_⟩
  · rw [countP_deed, List.countP_append, hnone]
    rfl
  · rw [hshows'.mutations, List.length_map, hwrites]
    show 0 + N ≤ _ + N
    omega

end Endless

end SyncForge.Bridge
