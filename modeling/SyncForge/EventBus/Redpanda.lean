import SyncForge.Deployment
import Mathlib.Data.List.Pairwise
import Mathlib.Data.List.Infix

/-!
# `EventBus.Redpanda` — the consumer loop and its offset commits

`internal/eventbus/redpanda.go`. `Subscribe` polls, hands every record to the handler, marks those whose
handler returned `nil`, and commits after each poll. The client library is not part of the repository;
`Client` says what the loop relies on: a commit acknowledges at least the offsets marked and at most those
polled, and every earlier record of the partition.
-/

namespace SyncForge.EventBus

open Effect
open Deployment (annCreated policy world)

/-! ## The loop -/

/-- `eventbus.Handler`, with the state it works on. -/
abbrev Handler (σ β : Type) := String → β → σ → Except GoError Unit × σ

/-- `kgo.Record`, with the fields `Subscribe` reads. -/
structure Record (β : Type) where
  partition : Nat
  offset : Nat
  key : String
  value : β

/-- One round of the loop: what `PollFetches` returned, and whether the commit at its end reaches the
    broker. -/
structure Poll (β : Type) where
  records : List (Record β)
  commits : Bool

/-- `CommitUncommittedOffsets`, for one partition: the offset committed, given the next offset after the
    marked records and the one after the polled records. -/
structure Client where
  commit : Nat → Nat → Nat
  marked_le : ∀ marked polled, marked ≤ polled → marked ≤ commit marked polled
  le_polled : ∀ marked polled, marked ≤ polled → commit marked polled ≤ polled

def Client.marks : Client := ⟨fun marked _ => marked, fun _ _ _ => le_rfl, fun _ _ h => h⟩

def Client.polls : Client := ⟨fun _ polled => polled, fun _ _ h => h, fun _ _ _ => le_rfl⟩

structure Consumer (σ β : Type) where
  world : σ
  marked : Nat → Nat
  polled : Nat → Nat
  committed : Nat → Nat
  /-- The handler calls made so far, and which of them returned `nil`. -/
  handled : List (Record β × Bool) := []

def raise (mark : Nat → Nat) (q offset : Nat) : Nat → Nat :=
    Function.update mark q (max (mark q) (offset + 1))

namespace Consumer

variable {σ β : Type}

/-- `PollFetches` moves the position past every record it returns. -/
def fetch (c : Consumer σ β) (r : Record β) : Consumer σ β :=
  { c with polled := raise c.polled r.partition r.offset }

def markCommitRecords (c : Consumer σ β) (r : Record β) : Consumer σ β :=
  { c with marked := raise c.marked r.partition r.offset }

def consume (handler : Handler σ β) (c : Consumer σ β) (r : Record β) : Consumer σ β :=
  match handler r.key r.value c.world with
  | (.error _, w) => { c with world := w, handled := c.handled ++ [(r, false)] }
  | (.ok _, w) => { c with world := w, handled := c.handled ++ [(r, true)] }.markCommitRecords r

def poll (client : Client) (handler : Handler σ β) (c : Consumer σ β) (p : Poll β) : Consumer σ β :=
  let c := p.records.foldl (consume handler) (p.records.foldl fetch c)
  if p.commits then { c with committed := fun q => client.commit (c.marked q) (c.polled q) } else c

/-- `Subscribe`, for as many rounds as it runs. -/
def subscribe (client : Client) (handler : Handler σ β) (c : Consumer σ β) (polls : List (Poll β)) :
    Consumer σ β :=
  polls.foldl (poll client handler) c

/-- No record is acknowledged before its handler returned `nil`. -/
def Acknowledged (c : Consumer σ β) : Prop :=
  ∀ x ∈ c.handled, x.1.offset < c.committed x.1.partition →
    ∃ y ∈ c.handled, y.1.partition = x.1.partition ∧ y.1.offset = x.1.offset ∧ y.2 = true

structure Starts (c : Consumer σ β) : Prop where
  handled : c.handled = []
  marked : c.marked = c.committed
  polled : c.polled = c.committed

end Consumer

def workerHandler (env : Env) : Handler World Bytes :=
  fun _ value w => Prog.run (World.handle env) (handle env value) w

/-! ## What the handler answered -/

section Outcomes

variable {σ β : Type} {handler : Handler σ β} {client : Client} {c : Consumer σ β}

def outcomes (handler : Handler σ β) : List (Record β) → σ → List (Record β × Bool)
  | [], _ => []
  | r :: rs, w =>
    (r, (handler r.key r.value w).1.isOk) :: outcomes handler rs (handler r.key r.value w).2

def outcomeState (handler : Handler σ β) : List (Record β) → σ → σ
  | [], w => w
  | r :: rs, w => outcomeState handler rs (handler r.key r.value w).2

theorem outcomes_append (rs rs' : List (Record β)) (w : σ) :
    outcomes handler (rs ++ rs') w = outcomes handler rs w ++ outcomes handler rs'
    (outcomeState handler rs w) := by
  induction rs generalizing w with
  | nil => rfl
  | cons r rs ih => simp only [List.cons_append, outcomes, outcomeState, ih]

theorem outcomeState_append (rs rs' : List (Record β)) (w : σ) :
    outcomeState handler (rs ++ rs') w = outcomeState handler rs' (outcomeState handler rs w) := by
  induction rs generalizing w with
  | nil => rfl
  | cons r rs ih => exact ih _

theorem outcomes_fst (rs : List (Record β)) (w : σ) : (outcomes handler rs w).map Prod.fst = rs := by
  induction rs generalizing w with
  | nil => rfl
  | cons r rs ih => simp only [outcomes, List.map_cons, ih]

end Outcomes

/-! ## High-water marks -/

/-- `mark` is the next offset after those of `done`, per partition, or `start` where there is none. -/
structure HighWater (start : Nat → Nat) (done : List (Nat × Nat)) (mark : Nat → Nat) : Prop where
  lt : ∀ x ∈ done, x.2 < mark x.1
  attained : ∀ q, mark q = start q ∨ ∃ o, (q, o) ∈ done ∧ o + 1 = mark q
  start_le : ∀ q, start q ≤ mark q

namespace HighWater

variable {start mark : Nat → Nat} {done : List (Nat × Nat)}

theorem nil : HighWater start [] start :=
  ⟨nofun, fun _ => .inl rfl, fun _ => le_rfl⟩

theorem le_raise (mark : Nat → Nat) (q o p : Nat) : mark p ≤ raise mark q o p := by
  unfold raise
  by_cases hp : p = q
  · subst hp
    rw [Function.update_self]
    exact le_max_left _ _
  · rw [Function.update_of_ne hp]

theorem raise (h : HighWater start done mark) (q o : Nat) :
    HighWater start (done ++ [(q, o)]) (EventBus.raise mark q o) := by
  constructor
  · intro x hx
    rcases List.mem_append.mp hx with hx | hx
    · exact lt_of_lt_of_le (h.lt x hx) (le_raise mark q o x.1)
    · rw [List.mem_singleton.mp hx, EventBus.raise, Function.update_self]
      exact lt_of_lt_of_le (Nat.lt_succ_self o) (le_max_right _ _)
  · intro p
    have hold : mark p = start p ∨ ∃ o', (p, o') ∈ done ++ [(q, o)] ∧ o' + 1 = mark p := by
      rcases h.attained p with hp | ⟨o', ho', hmark⟩
      · exact .inl hp
      · exact .inr ⟨o', List.mem_append_left _ ho', hmark⟩
    by_cases hp : p = q
    · subst hp
      rw [EventBus.raise, Function.update_self]
      -- either the old mark stays, or the new offset makes it
      rcases max_choice (mark p) (o + 1) with hmax | hmax
      · rwa [hmax]
      · exact .inr ⟨o, List.mem_concat_self, hmax.symm⟩
    · rwa [EventBus.raise, Function.update_of_ne hp]
  · exact fun p => (h.start_le p).trans (le_raise mark q o p)

end HighWater

/-! ## The loop's bookkeeping -/

section Loop

variable {σ β : Type} {handler : Handler σ β} {client : Client} {c : Consumer σ β} {start : Nat → Nat}
  {w0 : σ}
variable {seen : List (Record β)}

def Record.position (r : Record β) : Nat × Nat := (r.partition, r.offset)

/-- The positions whose handler returned `nil`. -/
def acked (handled : List (Record β × Bool)) : List (Nat × Nat) :=
  (handled.filter Prod.snd).map (fun x => x.1.position)

variable {handled : List (Record β × Bool)}

theorem mem_acked {q o : Nat} : (q, o) ∈ acked handled ↔ ∃ x ∈ handled, x.2 = true ∧ x.1.partition = q ∧
    x.1.offset = o := by
  unfold acked
  simp only [List.mem_map, List.mem_filter, Record.position, Prod.mk.injEq]
  constructor
  · rintro ⟨x, ⟨hx, hok⟩, hq, ho⟩
    exact ⟨x, hx, hok, hq, ho⟩
  · rintro ⟨x, hx, hok, hq, ho⟩
    exact ⟨x, ⟨hx, hok⟩, hq, ho⟩

/-- The consumer after it handled the records `seen`, having started at `start` with the handler's state
    `w0`. -/
structure Follows (handler : Handler σ β) (start : Nat → Nat) (w0 : σ) (seen : List (Record β))
    (c : Consumer σ β) : Prop where
  world : c.world = outcomeState handler seen w0
  handled : c.handled = outcomes handler seen w0
  marked : HighWater start (acked c.handled) c.marked
  polled : HighWater start (seen.map Record.position) c.polled

theorem foldl_fetch {done : List (Nat × Nat)} (rs : List (Record β)) (h : HighWater start done c.polled) :
    ∃ polled, rs.foldl Consumer.fetch c = { c with polled := polled } ∧
      HighWater start (done ++ rs.map Record.position) polled := by
  induction rs generalizing c done with
  | nil =>
    rw [List.map_nil, List.append_nil]
    exact ⟨c.polled, rfl, h⟩
  | cons r rs ih =>
    obtain ⟨polled, heq, hwater⟩ := @ih (c.fetch r) (done ++ [r.position]) (h.raise r.partition r.offset)
    refine ⟨polled, heq, ?_⟩
    rwa [List.append_assoc] at hwater

theorem foldl_consume (rs : List (Record β)) (h : HighWater start (acked c.handled) c.marked) :
    ∃ marked, rs.foldl (Consumer.consume handler) c
        = { c with
            world := outcomeState handler rs c.world
            handled := c.handled ++ outcomes handler rs c.world
            marked := marked } ∧
      HighWater start (acked (c.handled ++ outcomes handler rs c.world)) marked := by
  induction rs generalizing c with
  | nil =>
    rw [show outcomes handler [] c.world = [] from rfl, List.append_nil]
    exact ⟨c.marked, rfl, h⟩
  | cons r rs ih =>
    rw [List.foldl_cons]
    -- a failed record adds nothing to what is acknowledged
    have hstep : ∃ marked, c.consume handler r
          = { c with
              world := (handler r.key r.value c.world).2
              handled := c.handled ++ [(r, (handler r.key r.value c.world).1.isOk)]
              marked := marked } ∧
        HighWater start (acked (c.handled ++ [(r, (handler r.key r.value c.world).1.isOk)])) marked := by
      unfold Consumer.consume
      rcases handler r.key r.value c.world with ⟨_ | _, w⟩
      · refine ⟨c.marked, rfl, ?_⟩
        rw [acked, List.filter_append, List.map_append]
        show HighWater start (acked c.handled ++ []) c.marked
        rwa [List.append_nil]
      · refine ⟨raise c.marked r.partition r.offset, rfl, ?_⟩
        rw [acked, List.filter_append, List.map_append]
        exact h.raise r.partition r.offset
    obtain ⟨marked1, heq, hwater⟩ := hstep
    rw [heq]
    obtain ⟨marked, heq', hwater'⟩ := @ih { c with
      world := (handler r.key r.value c.world).2
      handled := c.handled ++ [(r, (handler r.key r.value c.world).1.isOk)]
      marked := marked1 } hwater
    have hcons : (c.handled ++ [(r, (handler r.key r.value c.world).1.isOk)])
        ++ outcomes handler rs (handler r.key r.value c.world).2 = c.handled ++ outcomes handler (r :: rs) c.world := by
      rw [List.append_assoc]
      rfl
    refine ⟨marked, ?_, ?_⟩
    · rw [heq', ← hcons]
      rfl
    · rwa [← hcons]

/-- **One round** of the loop. -/
theorem Follows.poll (h : Follows handler start w0 seen c) (p : Poll β) :
    Follows handler start w0 (seen ++ p.records) (c.poll client handler p) ∧
      (c.poll client handler p).committed
        = if p.commits then
            fun q => client.commit ((c.poll client handler p).marked q) ((c.poll client handler p).polled q)
          else c.committed := by
  obtain ⟨polled, hfetch, hpolled⟩ := foldl_fetch p.records h.polled
  obtain ⟨marked, hconsume, hmarked⟩ :=
    @foldl_consume _ _ handler { c with polled := polled } start p.records h.marked
  have hhandled : c.handled ++ outcomes handler p.records c.world
    = outcomes handler (seen ++ p.records) w0 := by
    rw [outcomes_append, h.handled, h.world]
  have hworld : outcomeState handler p.records c.world = outcomeState handler (seen ++ p.records) w0 := by
    rw [h.world, outcomeState_append]
  unfold Consumer.poll
  simp only [hfetch, hconsume]
  split_ifs
  · exact ⟨⟨hworld, hhandled, hmarked, by rw [List.map_append]; exact hpolled⟩, rfl⟩
  · exact ⟨⟨hworld, hhandled, hmarked, by rw [List.map_append]; exact hpolled⟩, rfl⟩

theorem follows_subscribe (hstart : c.Starts) (polls : List (Poll β)) :
    Follows handler c.committed c.world (polls.flatMap Poll.records) (c.subscribe client handler polls) := by
  induction polls using List.reverseRecOn with
  | nil =>
    have hmarked : HighWater c.committed (acked c.handled) c.marked := by
      rw [hstart.handled, hstart.marked]
      exact HighWater.nil
    have hpolled : HighWater c.committed [] c.polled := by
      rw [hstart.polled]
      exact HighWater.nil
    exact ⟨rfl, hstart.handled, hmarked, hpolled⟩
  | append_singleton polls p ih =>
    rw [Consumer.subscribe, List.foldl_append, List.flatMap_append, List.flatMap_singleton]
    exact (ih.poll p).1

theorem Follows.marked_le (h : Follows handler start w0 seen c) (q : Nat) : c.marked q ≤ c.polled q := by
  rcases h.marked.attained q with hq | ⟨o, ho, hq⟩
  · rw [hq]
    exact h.polled.start_le q
  · obtain ⟨x, hx, _, rfl, rfl⟩ := mem_acked.mp ho
    have hseen : x.1 ∈ seen := by
      rw [h.handled] at hx
      rw [← @outcomes_fst _ _ handler seen w0]
      exact List.mem_map_of_mem hx
    have hlt := h.polled.lt _ (List.mem_map_of_mem (f := Record.position) hseen)
    rwa [← hq]

/-! ## When commits are harmless -/

def InOrder (rs : List (Record β)) : Prop :=
  rs.Pairwise (fun r s => r.partition = s.partition → r.offset < s.offset)

def StopsAtFailure (handled : List (Record β × Bool)) : Prop :=
  handled.Pairwise (fun x y => x.1.partition = y.1.partition → x.2 = false → y.2 = false)

theorem inOrder_handled (h : InOrder (handled.map Prod.fst)) :
    handled.Pairwise (fun x y => x.1.partition = y.1.partition → x.1.offset < y.1.offset) :=
  List.pairwise_map.mp h

variable {x : Record β × Bool}

theorem eq_of_position (h : InOrder (handled.map Prod.fst)) {y : Record β × Bool}
    (hx : x ∈ handled) (hy : y ∈ handled) (hq : x.1.partition = y.1.partition)
    (ho : x.1.offset = y.1.offset) : x = y := by
  by_contra hne
  have hsymm : Std.Symm (fun x y : Record β × Bool => x.1.partition = y.1.partition →
    x.1.offset ≠ y.1.offset) :=
    ⟨fun a b hab hq ho => hab hq.symm ho.symm⟩
  have hpair : handled.Pairwise (fun x y => x.1.partition = y.1.partition → x.1.offset ≠ y.1.offset) :=
    (inOrder_handled h).imp (fun hlt hq => (hlt hq).ne)
  exact hpair.forall hx hy hne hq ho

structure Sound (c : Consumer σ β) : Prop where
  ok : ∀ x ∈ c.handled, x.1.offset < c.committed x.1.partition → x.2 = true
  le_polled : ∀ q, c.committed q ≤ c.polled q

theorem Sound.acknowledged (h : Sound c) : c.Acknowledged :=
  fun x hx hlt => ⟨x, hx, rfl, rfl, h.ok x hx hlt⟩

/-- A round keeps `Sound` if its commit, should it come through, covers no failed record. -/
theorem Sound.poll (h : Sound c) (hf : Follows handler start w0 seen c) {p : Poll β}
    (horder : InOrder (seen ++ p.records)) (hfrom : ∀ r ∈ p.records, start r.partition ≤ r.offset)
    (hcommit : p.commits = true → ∀ x ∈ outcomes handler (seen ++ p.records) w0,
      x.1.offset < (c.poll client handler p).committed x.1.partition → x.2 = true) :
    Sound (c.poll client handler p) := by
  obtain ⟨hf', hcommitted⟩ := @Follows.poll _ _ handler client c start w0 seen hf p
  have hpolled : ∀ q, c.polled q ≤ (c.poll client handler p).polled q := by
    intro q
    rcases hf.polled.attained q with hq | ⟨o, ho, hq⟩
    · rw [hq]
      exact hf'.polled.start_le q
    · have hlt := hf'.polled.lt (q, o) (by rw [List.map_append]; exact List.mem_append_left _ ho)
      rwa [← hq]
  by_cases hp : p.commits = true
  · rw [if_pos hp] at hcommitted
    refine ⟨fun x hx => hcommit hp x (by rw [← hf'.handled]; exact hx), fun q => ?_⟩
    rw [hcommitted]
    exact client.le_polled _ _ (hf'.marked_le q)
  · rw [if_neg hp] at hcommitted
    refine ⟨fun x hx hlt => ?_, fun q => by rw [hcommitted]; exact (h.le_polled q).trans (hpolled q)⟩
    rw [hcommitted] at hlt
    rw [hf'.handled, outcomes_append, ← hf.handled] at hx
    rcases List.mem_append.mp hx with hx | hx
    · exact h.ok x hx hlt
    · -- a record polled only now lies above everything committed before
      have hmem : x.1 ∈ p.records := by
        rw [← @outcomes_fst _ _ handler p.records (outcomeState handler seen w0)]
        exact List.mem_map_of_mem hx
      have hle := h.le_polled x.1.partition
      rcases hf.polled.attained x.1.partition with hq | ⟨o, ho, hq⟩
      · have hge := hfrom x.1 hmem
        omega
      · obtain ⟨r, hr, hpos⟩ := List.mem_map.mp ho
        obtain ⟨hrp, hro⟩ := Prod.mk.inj hpos
        have hlt' := (List.pairwise_append.mp horder).2.2 r hr x.1 hmem hrp
        omega

variable {pre : List (Poll β)}

theorem committed_subscribe (hstart : c.Starts) {p : Poll β} (hp : p.commits = true) (q : Nat) :
    (c.subscribe client handler (pre ++ [p])).committed q
      = client.commit ((c.subscribe client handler (pre ++ [p])).marked q)
          ((c.subscribe client handler (pre ++ [p])).polled q) := by
  have hlast := (@Follows.poll _ _ handler client (c.subscribe client handler pre) _ _ _
    (follows_subscribe hstart pre) p).2
  rw [if_pos hp] at hlast
  rw [Consumer.subscribe, List.foldl_append]
  exact congrFun hlast q

/-- **Run lemma**: commits that pass only handled records acknowledge only those. -/
theorem sound_subscribe (hstart : c.Starts) {polls : List (Poll β)}
    (horder : InOrder (polls.flatMap Poll.records))
    (hfrom : ∀ r ∈ polls.flatMap Poll.records, c.committed r.partition ≤ r.offset)
    (hcommit : ∀ pre p, pre ++ [p] <+: polls → p.commits = true →
      ∀ x ∈ outcomes handler ((pre ++ [p]).flatMap Poll.records) c.world,
        x.1.offset < (c.subscribe client handler (pre ++ [p])).committed x.1.partition → x.2 = true) :
    Sound (c.subscribe client handler polls) := by
  induction polls using List.reverseRecOn with
  | nil =>
    refine ⟨fun x hx => ?_, fun q => ?_⟩
    · rw [show (c.subscribe client handler []).handled = [] from hstart.handled] at hx
      cases hx
    · rw [show (c.subscribe client handler []).polled = c.committed from hstart.polled]
      exact le_rfl
  | append_singleton polls p ih =>
    have hcommit' := hcommit polls p (List.prefix_refl _)
    rw [List.flatMap_append, List.flatMap_singleton] at horder hfrom
    have hsound := ih (List.pairwise_append.mp horder).1 (fun r hr => hfrom r (List.mem_append_left _ hr))
      (fun pre q hpre => hcommit pre q (hpre.trans (List.prefix_append _ _)))
    rw [Consumer.subscribe, List.foldl_append, List.flatMap_append, List.flatMap_singleton] at hcommit'
    rw [Consumer.subscribe, List.foldl_append]
    exact hsound.poll (follows_subscribe hstart polls) horder
      (fun r hr => hfrom r (List.mem_append_right _ hr)) hcommit'

theorem Follows.ok_of_lt_marked (h : Follows handler start w0 seen c) (horder : InOrder seen)
    (hfrom : ∀ r ∈ seen, start r.partition ≤ r.offset) (hstop : StopsAtFailure (outcomes handler seen w0))
    (hx : x ∈ outcomes handler seen w0) (hlt : x.1.offset < c.marked x.1.partition) : x.2 = true := by
  have horder' : InOrder ((outcomes handler seen w0).map Prod.fst) := by
    rwa [outcomes_fst]
  have hseen : x.1 ∈ seen := by
    rw [← @outcomes_fst _ _ handler seen w0]
    exact List.mem_map_of_mem hx
  rcases h.marked.attained x.1.partition with hq | ⟨o, ho, hq⟩
  · have hge := hfrom x.1 hseen
    omega
  · -- the mark comes from a record `y` that succeeded, at `x` or after it
    rw [h.handled] at ho
    obtain ⟨y, hy, hok, hyq, rfl⟩ := mem_acked.mp ho
    by_contra hfailed
    have hne : x ≠ y := fun hxy => hfailed (by rw [hxy]; exact hok)
    have hsymm : Std.Symm (fun x y : Record β × Bool => x.1.partition = y.1.partition →
        (x.1.offset < y.1.offset ∧ (x.2 = false → y.2 = false)) ∨
          (y.1.offset < x.1.offset ∧ (y.2 = false → x.2 = false))) :=
      ⟨fun a b hab hpart => (hab hpart.symm).symm⟩
    have hpair : (outcomes handler seen w0).Pairwise (fun x y => x.1.partition = y.1.partition →
        (x.1.offset < y.1.offset ∧ (x.2 = false → y.2 = false)) ∨
          (y.1.offset < x.1.offset ∧ (y.2 = false → x.2 = false))) :=
      ((inOrder_handled horder').and hstop).imp (fun hxy hpart => .inl ⟨hxy.1 hpart, hxy.2 hpart⟩)
    rcases hpair.forall hx hy hne hyq.symm with ⟨_, hstop'⟩ | ⟨hlt', _⟩
    · rw [hstop' (Bool.eq_false_iff.mpr hfailed)] at hok
      cases hok
    · omega

theorem ok_of_acknowledged (hstart : c.Starts) {polls : List (Poll β)}
    (horder : InOrder (polls.flatMap Poll.records)) (hack : (c.subscribe client handler polls).Acknowledged)
    (hx : x ∈ outcomes handler (polls.flatMap Poll.records) c.world)
    (hlt : x.1.offset < (c.subscribe client handler polls).committed x.1.partition) : x.2 = true := by
  have hf : Follows handler _ _ _ (c.subscribe client handler polls) := follows_subscribe hstart polls
  have hx' : x ∈ (c.subscribe client handler polls).handled := by
    rwa [hf.handled]
  obtain ⟨y, hy, hq, ho, hok⟩ := hack x hx' hlt
  have hmap : InOrder ((c.subscribe client handler polls).handled.map Prod.fst) := by
    rwa [hf.handled, outcomes_fst]
  rwa [eq_of_position hmap hx' hy hq.symm ho.symm]

theorem stops_of_acknowledged (hstart : c.Starts) {p : Poll β}
    (horder : InOrder ((pre ++ [p]).flatMap Poll.records)) (hp : p.commits = true)
    (hack : (c.subscribe .marks handler (pre ++ [p])).Acknowledged) :
    StopsAtFailure (outcomes handler ((pre ++ [p]).flatMap Poll.records) c.world) := by
  have hf : Follows handler _ _ _ (c.subscribe .marks handler (pre ++ [p])) := follows_subscribe hstart _
  have hmap : InOrder ((outcomes handler ((pre ++ [p]).flatMap Poll.records) c.world).map Prod.fst) := by
    rwa [outcomes_fst]
  refine (inOrder_handled hmap).imp_of_mem (fun {x y} hx hy hlt hq hfailed => ?_)
  by_contra hok
  have hmarked := hf.marked.lt y.1.position (by
    rw [hf.handled]
    exact mem_acked.mpr ⟨y, hy, Bool.not_eq_false _ ▸ hok, rfl, rfl⟩)
  have hxok := ok_of_acknowledged hstart horder hack hx (by
    rw [committed_subscribe hstart hp, hq]
    exact (hlt hq).trans hmarked)
  rw [hfailed] at hxok
  cases hxok

theorem all_ok_of_acknowledged (hstart : c.Starts) {p : Poll β}
    (horder : InOrder ((pre ++ [p]).flatMap Poll.records)) (hp : p.commits = true)
    (hack : (c.subscribe .polls handler (pre ++ [p])).Acknowledged) :
    ∀ x ∈ outcomes handler ((pre ++ [p]).flatMap Poll.records) c.world, x.2 = true := by
  intro x hx
  apply ok_of_acknowledged hstart horder hack hx
  rw [committed_subscribe hstart hp]
  have hf : Follows handler _ _ _ (c.subscribe .polls handler (pre ++ [p])) := follows_subscribe hstart _
  apply hf.polled.lt x.1.position
  rw [← @outcomes_fst _ _ handler ((pre ++ [p]).flatMap Poll.records) c.world]
  exact List.mem_map_of_mem (List.mem_map_of_mem hx)

/-- **At-least-once delivery.** The outcomes of the handler for which no commit is premature. A client that
    commits what was marked needs that, at every commit, no record has succeeded after a failed one of its
    partition; for any other client, which may commit up to what was polled, no record may have failed at
    all. -/
theorem acknowledged_iff (hstart : c.Starts) {polls : List (Poll β)}
    (horder : InOrder (polls.flatMap Poll.records))
    (hfrom : ∀ r ∈ polls.flatMap Poll.records, c.committed r.partition ≤ r.offset) :
    ((∀ pre, pre <+: polls → (c.subscribe .marks handler pre).Acknowledged) ↔
      ∀ pre p, pre ++ [p] <+: polls → p.commits = true →
        StopsAtFailure (outcomes handler ((pre ++ [p]).flatMap Poll.records) c.world)) ∧
    ((∀ client pre, pre <+: polls → (c.subscribe client handler pre).Acknowledged) ↔
      ∀ pre p, pre ++ [p] <+: polls → p.commits = true →
        ∀ x ∈ outcomes handler ((pre ++ [p]).flatMap Poll.records) c.world, x.2 = true) := by
  have hbefore : ∀ {pre : List (Poll β)}, pre <+: polls → InOrder (pre.flatMap Poll.records) ∧
      ∀ r ∈ pre.flatMap Poll.records, c.committed r.partition ≤ r.offset := by
    rintro pre ⟨rest, rfl⟩
    rw [List.flatMap_append] at horder hfrom
    exact ⟨(List.pairwise_append.mp horder).1, fun r hr => hfrom r (List.mem_append_left _ hr)⟩
  refine ⟨⟨fun hack pre p hpre hp => ?_, fun hstop pre hpre => ?_⟩, ⟨fun hack pre p hpre hp => ?_,
    fun hall client pre hpre => ?_⟩⟩
  · exact stops_of_acknowledged hstart (hbefore hpre).1 hp (hack _ hpre)
  · apply Sound.acknowledged
    refine sound_subscribe hstart (hbefore hpre).1 (hbefore hpre).2 (fun pre' p hpre' hp x hx hlt => ?_)
    have hin := hpre'.trans hpre
    rw [committed_subscribe hstart hp] at hlt
    exact (follows_subscribe hstart (pre' ++ [p])).ok_of_lt_marked (hbefore hin).1 (hbefore hin).2
      (hstop pre' p hin hp) hx hlt
  · exact all_ok_of_acknowledged hstart (hbefore hpre).1 hp (hack .polls _ hpre)
  · apply Sound.acknowledged
    exact sound_subscribe hstart (hbefore hpre).1 (hbefore hpre).2
      (fun pre' p hpre' hp x hx _ => hall pre' p (hpre'.trans hpre) hp x hx)

end Loop

/-! ## The worker on the bus -/

def bus : Consumer World Bytes where
  world := world [policy "salesforce" "hubspot"]
  marked _ := 0
  polled _ := 0
  committed _ := 0

def recordAt (offset : Nat) (value : Bytes) : Record Bytes := ⟨0, offset, "t1:customer:sf-1", value⟩

/-- Two polls: the second record cannot be decoded, and nothing is committed after the third. -/
theorem acknowledged_ann :
    let polls : List (Poll Bytes) := [⟨[recordAt 0 (.event annCreated), recordAt 1 (.garbage "\x7b")], true⟩,
      ⟨[recordAt 2 (.event annCreated)], false⟩]
    (outcomes (workerHandler Deployment.env) (polls.flatMap Poll.records) bus.world).map Prod.snd
      = [true, false, true] ∧
    ((∀ pre, pre <+: polls → (bus.subscribe .marks (workerHandler Deployment.env) pre).Acknowledged) ↔
      ∀ pre p, pre ++ [p] <+: polls → p.commits = true →
        StopsAtFailure (outcomes (workerHandler Deployment.env) ((pre ++ [p]).flatMap Poll.records) bus.world)) ∧
    ((∀ client pre, pre <+: polls → (bus.subscribe client (workerHandler Deployment.env) pre).Acknowledged) ↔
      ∀ pre p, pre ++ [p] <+: polls → p.commits = true →
        ∀ x ∈ outcomes (workerHandler Deployment.env) ((pre ++ [p]).flatMap Poll.records) bus.world, x.2 = true) := by
  intro polls
  have horder : InOrder (polls.flatMap Poll.records) := by
    simp [polls, InOrder, recordAt]
  exact ⟨by decide +kernel, acknowledged_iff ⟨rfl, rfl, rfl⟩ horder (fun _ _ => Nat.zero_le _)⟩

/-- **A later success acknowledges an earlier failure.** A message the worker cannot decode is followed, in
    the same poll, by one that it applies; the commit moves past both. -/
theorem failed_record_acknowledged :
    let c := bus.subscribe .marks (workerHandler Deployment.env)
      [⟨[recordAt 0 (.garbage "\x7b"), recordAt 1 (.event annCreated)], true⟩]
    c.handled.map (fun x => (x.1.offset, x.2)) = [(0, false), (1, true)] ∧ c.committed 0 = 2 ∧
      ¬ c.Acknowledged := by
  intro c
  have hhandled : c.handled.map (fun x => (x.1.position, x.2)) = [((0, 0), false), ((0, 1), true)] := by
    decide +kernel
  have hcommitted : c.committed 0 = 2 := by decide +kernel
  refine ⟨by decide +kernel, hcommitted, fun hack => ?_⟩
  obtain ⟨x, rest, hcons, hx, hrest⟩ := List.map_eq_cons_iff.mp hhandled
  obtain ⟨hpos, hfailed⟩ := Prod.mk.inj hx
  obtain ⟨hq, ho⟩ := Prod.mk.inj hpos
  obtain ⟨y, hy, _, hyo, hok⟩ := hack x (by rw [hcons]; exact (.head _)) (by
    rw [show x.1.partition = 0 from hq, show x.1.offset = 0 from ho, hcommitted]
    decide)
  -- the only success is at offset 1
  have hmem := List.mem_map_of_mem (f := fun x : Record Bytes × Bool => (x.1.position, x.2)) hy
  rw [hhandled] at hmem
  simp only [Record.position, hyo, show x.1.offset = 0 from ho, hok, List.mem_cons, List.not_mem_nil,
    Prod.mk.injEq] at hmem
  simp at hmem

end SyncForge.EventBus
