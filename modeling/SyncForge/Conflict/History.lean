import SyncForge.Conflict.Merge
import SyncForge.Register.LastMax
import SyncForge.Transition.Run
import Mathlib.Data.List.Induction

/-!
# `Conflict.History` — what `Merge` makes of a history of events

`Merge` folded over the events of any number of sources. If every event takes a field over exactly when it
ranks at least as high as the owner on record, the field holds the last of the highest-ranked values
(`ranked_run`). An event that carries the value the field has takes it over whatever its rank.
-/

namespace SyncForge.Conflict

open Register Transition

variable {K V : Type} [LinearOrder K] [DecidableEq V] [Inhabited V]

/-- An event as `Merge` sees it. -/
structure Incoming (K V : Type) where
  fields : AList (fun _ : K => V)
  by_ : Provenance

namespace Incoming

def Carries (f : K) (e : Incoming K V) : Prop := (e.fields.lookup f).isSome = true

end Incoming

namespace Ledger

def empty : Ledger K V := ⟨fun _ => none, fun _ => none⟩

/-- `Merge` applied to what is on record; a conflict that is parked leaves it as it is. -/
def merge (strategy : Strategy) (l : Ledger K V) (e : Incoming K V) : Ledger K V :=
  let merged := Conflict.merge strategy l.fields l.provenance e.fields e.by_
  if merged.manual then l else ⟨merged.fields, merged.provenance⟩

end Ledger

variable {strategy : Strategy} {l : Ledger K V} {e : Incoming K V} {f : K} {v : V}

/-! ## One event, one field -/

/-- The incoming side `b` of a conflict wins against the owner `a`. -/
def Overrules (strategy : Strategy) (a b : Provenance) : Prop :=
  match strategy with
  | .lastWriteWins | .fieldMerge => a.occurredAt < b.occurredAt ∨ a.occurredAt = b.occurredAt ∧
      b.priority < a.priority
  | .sourcePriority => b.priority < a.priority ∨ a.priority = b.priority ∧ a.occurredAt < b.occurredAt
  | .manual | .other _ => False

omit [LinearOrder K] [DecidableEq V] in
theorem resolve_of_overrules {c : FieldConflict K V} (h : Overrules strategy c.a c.b) :
    resolve strategy c = winnerB c := by
  cases strategy with
  | lastWriteWins | fieldMerge =>
    rcases h with h | ⟨h, hprio⟩
    · simp [resolve, h]
    · simp [resolve, h, hprio]
  | sourcePriority =>
    rcases h with h | ⟨h, htime⟩
    · simp [resolve, h]
    · simp [resolve, h, htime]
  | manual => exact h.elim
  | other name => exact h.elim

omit [LinearOrder K] [DecidableEq V] in
theorem resolve_of_not_overrules {c : FieldConflict K V} (hm : strategy ≠ .manual)
    (h : ¬ Overrules strategy c.a c.b) : resolve strategy c = winnerA c := by
  cases strategy with
  | lastWriteWins | fieldMerge =>
    have h1 : ¬ c.a.occurredAt < c.b.occurredAt := fun hlt => h (.inl hlt)
    by_cases h2 : c.b.occurredAt < c.a.occurredAt
    · simp [resolve, h1, h2]
    · have h3 : ¬ c.b.priority < c.a.priority :=
        fun hlt => h (.inr ⟨le_antisymm (not_lt.mp h2) (not_lt.mp h1), hlt⟩)
      simp [resolve, h1, h2, h3]
  | sourcePriority =>
    have h1 : ¬ c.b.priority < c.a.priority := fun hlt => h (.inl hlt)
    by_cases h2 : c.a.priority < c.b.priority
    · simp [resolve, h1, h2]
    · have h3 : ¬ c.a.occurredAt < c.b.occurredAt :=
        fun hlt => h (.inr ⟨le_antisymm (not_lt.mp h1) (not_lt.mp h2), hlt⟩)
      simp [resolve, h1, h2, h3]
  | manual => exact absurd rfl hm
  | other name => rfl

/-- When an event takes a field with owner `p` and value `v0` over: its source owns the field, it carries the
    value that is there, or it wins the conflict. -/
def Takes (strategy : Strategy) (v0 : V) (p : Provenance) (v : V) (by_ : Provenance) : Prop :=
  p.source = by_.source ∨ v0 = v ∨ Overrules (normalizeStrategy strategy) p by_

section Outcome

variable {persisted : K → Option V} {fp : K → Option Provenance} {by_ p : Provenance} {v0 : V}

omit [LinearOrder K] in
theorem outcome_new (hfp : fp f = none) : outcome strategy persisted fp by_ f v = (v, by_) := by
  simp [outcome, detectField, hfp]

omit [LinearOrder K] in
theorem outcome_taken (hv : (persisted f).getD default = v0) (hfp : fp f = some p)
    (h : Takes strategy v0 p v by_) : outcome strategy persisted fp by_ f v = (v, by_) := by
  unfold outcome detectField
  rw [hfp, hv]
  by_cases hsource : p.source = by_.source
  · simp [hsource]
  · by_cases hvalue : v0 = v
    · simp [hvalue]
    · have hover := (h.resolve_left hsource).resolve_left hvalue
      simp only [if_neg hsource, if_neg hvalue]
      rw [resolve_of_overrules hover]
      simp [winnerB, priorityFor, Ne.symm hsource]

omit [LinearOrder K] in
theorem outcome_kept (hm : strategy ≠ .manual) (hv : (persisted f).getD default = v0) (hfp : fp f = some p)
    (h : ¬ Takes strategy v0 p v by_) : outcome strategy persisted fp by_ f v = (v0, p) := by
  have hsource : p.source ≠ by_.source := fun hs => h (.inl hs)
  have hvalue : v0 ≠ v := fun hv => h (.inr (.inl hv))
  unfold outcome detectField
  rw [hfp, hv]
  simp only [if_neg hsource, if_neg hvalue]
  rw [resolve_of_not_overrules (normalizeStrategy_ne_manual hm) (fun ho => h (.inr (.inr ho)))]
  simp [winnerA, priorityFor]

theorem merge_owner {incoming : AList (fun _ : K => V)}
    (h : (merge strategy persisted fp incoming by_).manual = false)
    (hp : (merge strategy persisted fp incoming by_).provenance f = some p) : p = by_ ∨ fp f = some p := by
  rw [merge_provenance h] at hp
  cases hv : incoming.lookup f with
  | none =>
    rw [hv] at hp
    exact .inr hp
  | some v =>
    rw [hv] at hp
    cases hp
    cases howner : fp f with
    | none =>
      rw [outcome_new howner]
      exact .inl rfl
    | some p =>
      by_cases htakes : Takes strategy ((persisted f).getD default) p v by_
      · rw [outcome_taken rfl howner htakes]
        exact .inl rfl
      · have hm : strategy ≠ .manual := by
          -- the manual strategy would have parked the event
          rintro rfl
          have hsource : p.source ≠ by_.source := fun hs => htakes (.inl hs)
          have hvalue : (persisted f).getD default ≠ v := fun hv => htakes (.inr (.inl hv))
          have hmem : ⟨f, p, (persisted f).getD default, by_, v⟩ ∈ detect persisted fp incoming by_ := by
            refine mem_detect.mpr ⟨v, hv, ?_⟩
            unfold detectField
            rw [howner]
            simp only [if_neg hsource, if_neg hvalue]
          exact Bool.false_ne_true (h.symm.trans (merge_manual.mpr ⟨List.ne_nil_of_mem hmem, rfl⟩))
        rw [outcome_kept hm rfl howner htakes]
        exact .inr rfl

end Outcome

def Parked (strategy : Strategy) (l : Ledger K V) (e : Incoming K V) : Prop :=
  (Conflict.merge strategy l.fields l.provenance e.fields e.by_).manual = true

theorem not_parked (hm : strategy ≠ .manual) : ¬ Parked strategy l e := fun h => hm (merge_manual.mp h).2

def Ledger.Owned (l : Ledger K V) (f : K) : Prop :=
  l.at f = (none, none) ∨ ∃ v p, l.at f = (some v, some p)

theorem merge_parked (h : Parked strategy l e) : l.merge strategy e = l := if_pos h

theorem merge_not_parked (h : ¬ Parked strategy l e) :
    l.merge strategy e = ⟨(Conflict.merge strategy l.fields l.provenance e.fields e.by_).fields,
      (Conflict.merge strategy l.fields l.provenance e.fields e.by_).provenance⟩ := if_neg h

theorem merge_at_of_lookup (h : ¬ Parked strategy l e) (hv : e.fields.lookup f = some v) :
    (l.merge strategy e).at f = (some (outcome strategy l.fields l.provenance e.by_ f v).1,
      some (outcome strategy l.fields l.provenance e.by_ f v).2) := by
  have hmanual := Bool.eq_false_iff.mpr h
  rw [merge_not_parked h]
  exact Prod.ext (merge_of_lookup hmanual hv).1 (merge_of_lookup hmanual hv).2

theorem merge_at_of_absent (hv : e.fields.lookup f = none) : (l.merge strategy e).at f = l.at f := by
  by_cases h : Parked strategy l e
  · rw [merge_parked h]
  · have hmanual := Bool.eq_false_iff.mpr h
    rw [merge_not_parked h]
    refine Prod.ext ?_ ?_
    · show (Conflict.merge strategy l.fields l.provenance e.fields e.by_).fields f = l.fields f
      rw [merge_fields hmanual, hv]
    · show (Conflict.merge strategy l.fields l.provenance e.fields e.by_).provenance f = l.provenance f
      rw [merge_provenance hmanual, hv]

theorem parked_of_conflict {v0 : V} {p : Provenance} (hat : l.at f = (some v0, some p))
    (hv : e.fields.lookup f = some v) (hs : p.source ≠ e.by_.source) (hne : v0 ≠ v) : Parked .manual l e := by
  refine merge_manual.mpr ⟨?_, rfl⟩
  have hfields : l.fields f = some v0 := congrArg Prod.fst hat
  have hprov : l.provenance f = some p := congrArg Prod.snd hat
  have hmem : (⟨f, p, v0, e.by_, v⟩ : FieldConflict K V) ∈ detect l.fields l.provenance e.fields e.by_ := by
    refine mem_detect.mpr ⟨v, hv, ?_⟩
    simp [detectField, hfields, hprov, hs, hne]
  exact List.ne_nil_of_mem hmem

/-- **One event, one field.** The event takes the field over, or the field stays as it was. -/
theorem merge_at_eq (howned : l.Owned f) : (l.merge strategy e).at f = l.at f ∨
      ∃ v, ¬ Parked strategy l e ∧ e.fields.lookup f = some v ∧
      (l.merge strategy e).at f = (some v, some e.by_) := by
  by_cases hpark : Parked strategy l e
  · left
    rw [merge_parked hpark]
  · cases hv : e.fields.lookup f with
    | none =>
      left
      exact merge_at_of_absent hv
    | some v =>
      have hat := merge_at_of_lookup hpark hv
      rcases howned with hnone | ⟨v0, p, hsome⟩
      · -- a field nobody owns goes to the first that carries it
        right
        have hprov : l.provenance f = none := congrArg Prod.snd hnone
        rw [outcome_new hprov] at hat
        exact ⟨v, hpark, rfl, hat⟩
      · have hvalue : l.fields f = some v0 := congrArg Prod.fst hsome
        have hfields : (l.fields f).getD default = v0 := by rw [hvalue]; rfl
        have hprov : l.provenance f = some p := congrArg Prod.snd hsome
        by_cases htakes : Takes strategy v0 p v e.by_
        · right
          rw [outcome_taken hfields hprov htakes] at hat
          exact ⟨v, hpark, rfl, hat⟩
        · left
          have hm : strategy ≠ .manual := by
            rintro rfl
            exact hpark (parked_of_conflict hsome hv (fun h => htakes (.inl h)) (fun h => htakes (.inr (.inl h))))
          rw [outcome_kept hm hfields hprov htakes] at hat
          rw [hat, hsome]

/-! ## Provenance -/

def replay (history : List (Strategy × Incoming K V)) : Ledger K V :=
  history.foldl (fun l x => l.merge x.1 x.2) .empty

/-- An event of the history that was merged, not parked, with this provenance, and that carried `v` for
    `f`. -/
def Wrote (history : List (Strategy × Incoming K V)) (f : K) (v : V) (p : Provenance) : Prop :=
  ∃ pre strategy e post, history = pre ++ (strategy, e) :: post ∧ ¬ Parked strategy (replay pre) e ∧
    e.fields.lookup f = some v ∧ e.by_ = p

theorem Wrote.append {history : List (Strategy × Incoming K V)} {p : Provenance} (h : Wrote history f v p)
    (x : Strategy × Incoming K V) : Wrote (history ++ [x]) f v p := by
  obtain ⟨pre, strategy, e, post, rfl, hrest⟩ := h
  exact ⟨pre, strategy, e, post ++ [x], by rw [List.append_assoc, List.cons_append], hrest⟩

/-- **Provenance tells the truth.** After any history, under any mixture of strategies, exactly the fields
    with a value have an owner, and the owner is an event that was merged and carried that value. -/
theorem provenance_truthful (history : List (Strategy × Incoming K V)) (f : K) :
      (replay history).at f = (none, none) ∨ ∃ v p, (replay history).at f = (some v, some p) ∧
      Wrote history f v p := by
  induction history using List.reverseRecOn with
  | nil => exact .inl rfl
  | append_singleton history x ih =>
    have hstep : replay (history ++ [x]) = (replay history).merge x.1 x.2 := by
      unfold replay
      rw [List.foldl_append]
      rfl
    have howned : (replay history).Owned f := by
      rcases ih with h | ⟨v, p, h, _⟩
      · exact .inl h
      · exact .inr ⟨v, p, h⟩
    rw [hstep]
    rcases @merge_at_eq _ _ _ _ _ x.1 (replay history) x.2 f howned with hsame | ⟨v, hmerged, hv, hat⟩
    · rw [hsame]
      rcases ih with h | ⟨v, p, h, hwrote⟩
      · exact .inl h
      · exact .inr ⟨v, p, h, hwrote.append x⟩
    · exact .inr ⟨v, x.2.by_, hat, history, x.1, x.2, [], rfl, hmerged, hv, rfl⟩

/-! ## Histories in which rank decides -/

section Ranked

variable {R : Type} [LinearOrder R] {rank : Provenance → R} {es : List (Incoming K V)}

def Ranked (rank : Provenance → R) (es : List (Incoming K V)) (l : Ledger K V) : Prop :=
  ∀ f, (l.at f = (none, none) ∧ ∀ e ∈ es, ¬ e.Carries f) ∨
    ∃ e v, LastMax (Incoming.Carries f) (fun e => rank e.by_) es e ∧ e.fields.lookup f = some v ∧
      l.at f = (some v, some e.by_)

/-- **The step**: an event that takes exactly the fields whose owner it does not rank below. -/
theorem Ranked.merge (h : Ranked rank es l) (hm : strategy ≠ .manual)
    (htakes : ∀ f v v0 p, e.fields.lookup f = some v → l.at f = (some v0, some p) →
      (Takes strategy v0 p v e.by_ ↔ rank p ≤ rank e.by_)) : Ranked rank (es ++ [e]) (l.merge strategy e) := by
  intro f
  cases hv : e.fields.lookup f with
  | none =>
    -- the event says nothing about the field
    have hnot : ¬ e.Carries f := by
      rw [Incoming.Carries, hv]
      exact Bool.false_ne_true
    rw [merge_at_of_absent hv]
    rcases h f with ⟨hat, hnone⟩ | ⟨owner, v, hlast, hrest⟩
    · refine .inl ⟨hat, fun x hx => ?_⟩
      rcases List.mem_append.mp hx with hx | hx
      · exact hnone x hx
      · rwa [List.mem_singleton.mp hx]
    · exact .inr ⟨owner, v, hlast.keep (fun hc => absurd hc hnot), hrest⟩
  | some v =>
    have hcarries : e.Carries f := by
      rw [Incoming.Carries, hv]
      rfl
    have hat := merge_at_of_lookup (l := l) (not_parked hm) hv
    right
    rcases h f with ⟨hnone, hfirst⟩ | ⟨owner, v0, hlast, hv0, hsome⟩
    · have hprov : l.provenance f = none := congrArg Prod.snd hnone
      rw [outcome_new hprov] at hat
      exact ⟨e, v, LastMax.first hfirst hcarries, hv, hat⟩
    · have hvalue : l.fields f = some v0 := congrArg Prod.fst hsome
      have hfields : (l.fields f).getD default = v0 := by rw [hvalue]; rfl
      have hprov : l.provenance f = some owner.by_ := congrArg Prod.snd hsome
      have hiff := htakes f v v0 owner.by_ hv hsome
      by_cases ht : Takes strategy v0 owner.by_ v e.by_
      · rw [outcome_taken hfields hprov ht] at hat
        exact ⟨e, v, hlast.take hcarries (hiff.mp ht), hv, hat⟩
      · rw [outcome_kept hm hfields hprov ht] at hat
        refine ⟨owner, v0, hlast.keep (fun _ => not_le.mp (fun hle => ht (hiff.mpr hle))), hv0, hat⟩

def RepeatsForward (after : Provenance → Provenance → Prop) (l : Ledger K V) (e : Incoming K V) : Prop :=
  ∀ f v p, e.fields.lookup f = some v → l.at f = (some v, some p) → p.source ≠ e.by_.source → after p e.by_

def mergeStep (strategy : Strategy) (l : Ledger K V) (e : Incoming K V) : Option (Ledger K V) :=
  some (l.merge strategy e)

/-- **The run**: rank decides every field, if it decides every step. `H` is what is known of the history. -/
theorem ranked_run {ok : Ledger K V → Incoming K V → Prop} {H : List (Incoming K V) → Prop}
    (hm : strategy ≠ .manual) (hbefore : ∀ es e, H (es ++ [e]) → H es)
    (hstep : ∀ es l e, H (es ++ [e]) → Ranked rank es l → ok l e →
      ∀ f v v0 p, e.fields.lookup f = some v → l.at f = (some v0, some p) →
        (Takes strategy v0 p v e.by_ ↔ rank p ≤ rank e.by_))
    (hrun : Run (mergeStep strategy) ok .empty es l) (hes : H es) : Ranked rank es l := by
  have hinv : H es → Ranked rank es l := by
    refine hrun.invariant (P := fun es l => H es → Ranked rank es l) (fun _ f => ?_) ?_
    · exact .inl ⟨rfl, nofun⟩
    · intro es t e u ih hok hu hhist
      cases hu
      have hranked := ih (hbefore es e hhist)
      exact hranked.merge hm (hstep es t e hhist hranked hok)
  exact hinv hes

end Ranked

/-! ## Last write wins -/

section LastWrite

variable {es es' : List (Incoming K V)} {l' : Ledger K V}

def Streams (es : List (Incoming K V)) : Prop :=
  es.Pairwise (fun x y => x.by_.occurredAt ≠ y.by_.occurredAt ∧
    (x.by_.source = y.by_.source → x.by_.occurredAt < y.by_.occurredAt))

def ofSource (s : String) (es : List (Incoming K V)) : List (Incoming K V) :=
    es.filter (fun e => e.by_.source = s)

omit [LinearOrder K] [DecidableEq V] [Inhabited V] in
theorem Streams.interleaving (h : Streams es) (hsame : ∀ s, ofSource s es' = ofSource s es) :
    Streams es' ∧ ∀ e, e ∈ es' ↔ e ∈ es := by
  have hmem : ∀ e, e ∈ es' ↔ e ∈ es := by
    intro e
    have hof : ∀ xs : List (Incoming K V), e ∈ xs ↔ e ∈ ofSource e.by_.source xs := fun xs => by
      simp [ofSource]
    rw [hof es', hsame, ← hof es]
  refine ⟨?_, hmem⟩
  -- within one source the order is that of the stream, and between sources the times differ anyway
  have hof : ∀ s, (ofSource s es').Pairwise (fun x y => x.by_.occurredAt < y.by_.occurredAt) := by
    intro s
    rw [hsame]
    refine (h.filter _).imp_of_mem (fun {x y} hx hy hxy => hxy.2 ?_)
    have hxs := (List.mem_filter.mp hx).2
    have hys := (List.mem_filter.mp hy).2
    rw [of_decide_eq_true hxs, of_decide_eq_true hys]
  have hsymm : Std.Symm (fun x y : Incoming K V => x.by_.occurredAt ≠ y.by_.occurredAt) :=
    ⟨fun _ _ hxy => hxy.symm⟩
  have hdistinct : es.Pairwise (fun x y => x.by_.occurredAt ≠ y.by_.occurredAt) := h.imp (fun hxy => hxy.1)
  have hall : ∀ x ∈ es', ∀ y ∈ es', x.by_.source ≠ y.by_.source → x.by_.occurredAt ≠ y.by_.occurredAt := by
    intro x hx y hy hne
    exact hdistinct.forall ((hmem x).mp hx) ((hmem y).mp hy) (fun hxy => hne (by rw [hxy]))
  clear hmem hsame
  induction es' with
  | nil => exact List.Pairwise.nil
  | cons a es' ih =>
    have htail : ∀ s, (ofSource s es').Pairwise (fun x y => x.by_.occurredAt < y.by_.occurredAt) := by
      intro s
      have hs := hof s
      unfold ofSource at hs ⊢
      rw [List.filter_cons] at hs
      split_ifs at hs
      · exact (List.pairwise_cons.mp hs).2
      · exact hs
    refine List.pairwise_cons.mpr ⟨fun y hy => ?_, ih htail (fun x hx y hy => hall x (.tail _ hx) y
      (.tail _ hy))⟩
    have hlt : a.by_.source = y.by_.source → a.by_.occurredAt < y.by_.occurredAt := by
      intro hs
      have hown := hof a.by_.source
      unfold ofSource at hown
      rw [List.filter_cons, if_pos (decide_eq_true rfl)] at hown
      exact (List.pairwise_cons.mp hown).1 y (List.mem_filter.mpr ⟨hy, decide_eq_true hs.symm⟩)
    by_cases hs : a.by_.source = y.by_.source
    · exact ⟨(hlt hs).ne, hlt⟩
    · exact ⟨hall a (.head _) y (.tail _ hy) hs, hlt⟩

def Later (p q : Provenance) : Prop := p.occurredAt < q.occurredAt

theorem lastWrite_ranked (hrun : Run (mergeStep .lastWriteWins) (RepeatsForward Later) .empty es l)
    (hstreams : Streams es) : Ranked Provenance.occurredAt es l := by
  refine ranked_run (H := Streams) (by decide) (fun es e h => (List.pairwise_append.mp h).1) ?_ hrun hstreams
  intro es l e hhist hranked hok f v v0 p hv hat
  -- the owner on record is an earlier event, so its time is another one
  rcases hranked f with ⟨hnone, _⟩ | ⟨owner, v1, hlast, _, hat'⟩
  · rw [hnone] at hat
    cases hat
  · rw [hat'] at hat
    obtain ⟨rfl, rfl⟩ : v1 = v0 ∧ owner.by_ = p := by simpa using hat
    obtain ⟨hne, hsame⟩ := (List.pairwise_append.mp hhist).2.2 owner hlast.mem e (.head _)
    constructor
    · rintro (hs | rfl | hover)
      · exact (hsame hs).le
      · by_cases hs : owner.by_.source = e.by_.source
        · exact (hsame hs).le
        · exact (hok f v1 owner.by_ hv hat' hs).le
      · rcases hover with hlt | ⟨heq, _⟩
        · exact hlt.le
        · exact heq.le
    · intro hle
      exact .inr (.inr (.inl (lt_of_le_of_ne hle hne)))

/-- **Last write wins, in any order.** Two interleavings of the same streams, in each of which no event
    repeats another source's value out of its time, give the same fields, and each field has the value of the
    latest event that carries it. -/
theorem last_write_converges (hstreams : Streams es) (hsame : ∀ s, ofSource s es' = ofSource s es)
    (hrun : Run (mergeStep .lastWriteWins) (RepeatsForward Later) .empty es l)
    (hrun' : Run (mergeStep .lastWriteWins) (RepeatsForward Later) .empty es' l') : l.fields = l'.fields ∧
      ∀ f, ((∀ e ∈ es, ¬ e.Carries f) → l.fields f = none) ∧ ∀ e ∈ es, ∀ v, e.fields.lookup f = some v →
          (∀ x ∈ es, x.Carries f → x.by_.occurredAt ≤ e.by_.occurredAt) → l.fields f = some v := by
  obtain ⟨hstreams', hmem⟩ := hstreams.interleaving hsame
  have hsymm : Std.Symm (fun x y : Incoming K V => x.by_.occurredAt ≠ y.by_.occurredAt) :=
    ⟨fun _ _ hxy => hxy.symm⟩
  have hdistinct : es.Pairwise (fun x y => x.by_.occurredAt ≠ y.by_.occurredAt) :=
    hstreams.imp (fun hxy => hxy.1)
  -- any run over these events leaves the value of the latest
  have hlatest : ∀ {xs : List (Incoming K V)} {m : Ledger K V}, Ranked Provenance.occurredAt xs m →
      (∀ e, e ∈ xs ↔ e ∈ es) → ∀ f, ((∀ e ∈ es, ¬ e.Carries f) → m.fields f = none) ∧
        ∀ e ∈ es, ∀ v, e.fields.lookup f = some v →
          (∀ x ∈ es, x.Carries f → x.by_.occurredAt ≤ e.by_.occurredAt) → m.fields f = some v := by
    intro xs m hranked hxs f
    rcases hranked f with ⟨hat, hnone⟩ | ⟨owner, v0, hlast, hv0, hat⟩
    · refine ⟨fun _ => congrArg Prod.fst hat, fun e he v hv _ => ?_⟩
      refine absurd ?_ (hnone e ((hxs e).mpr he))
      rw [Incoming.Carries, hv]
      rfl
    · refine ⟨fun hno => absurd hlast.holds (hno owner ((hxs owner).mp hlast.mem)), fun e he v hv hmax => ?_⟩
      have hcarries : e.Carries f := by
        rw [Incoming.Carries, hv]
        rfl
      have heq : owner = e := by
        by_contra hne
        exact hdistinct.forall ((hxs owner).mp hlast.mem) he hne
          (le_antisymm (hmax owner ((hxs owner).mp hlast.mem) hlast.holds) (hlast.le ((hxs e).mpr he) hcarries))
      subst heq
      rw [hv0] at hv
      rw [← hv]
      exact congrArg Prod.fst hat
  have hl := hlatest (lastWrite_ranked hrun hstreams) (fun _ => Iff.rfl)
  refine ⟨funext (fun f => ?_), hl⟩
  have hl' := hlatest (lastWrite_ranked hrun' hstreams') hmem f
  rcases lastWrite_ranked hrun hstreams f with ⟨hat, hnone⟩ | ⟨owner, v, hlast, hv, hat⟩
  · rw [hl'.1 hnone]
    exact congrArg Prod.fst hat
  · rw [hl'.2 owner hlast.mem v hv (fun x hx hc => hlast.le hx hc)]
    exact congrArg Prod.fst hat

end LastWrite

/-! ## Source priority -/

section SourcePriority

variable {es : List (Incoming K V)}

def Prioritized (es : List (Incoming K V)) : Prop :=
  ∀ x ∈ es, ∀ y ∈ es, x.by_.priority = y.by_.priority ↔ x.by_.source = y.by_.source

def Preferred (p q : Provenance) : Prop := q.priority < p.priority

theorem sourcePriority_ranked (hrun : Run (mergeStep .sourcePriority) (RepeatsForward Preferred) .empty es l)
    (hprio : Prioritized es) : Ranked (fun p => -p.priority) es l := by
  refine ranked_run (H := Prioritized) (by decide)
    (fun es e h x hx y hy => h x (List.mem_append_left _ hx) y (List.mem_append_left _ hy)) ?_ hrun hprio
  intro es l e hhist hranked hok f v v0 p hv hat
  rcases hranked f with ⟨hnone, _⟩ | ⟨owner, v1, hlast, _, hat'⟩
  · rw [hnone] at hat
    cases hat
  · rw [hat'] at hat
    obtain ⟨rfl, rfl⟩ : v1 = v0 ∧ owner.by_ = p := by simpa using hat
    have hsame := hhist owner (List.mem_append_left _ hlast.mem) e (List.mem_concat_self)
    constructor
    · rintro (hs | rfl | hover)
      · have heq := hsame.mpr hs
        omega
      · by_cases hs : owner.by_.source = e.by_.source
        · have heq := hsame.mpr hs
          omega
        · have hlt : e.by_.priority < owner.by_.priority := hok f v1 owner.by_ hv hat' hs
          omega
      · rcases hover with hlt | ⟨heq, _⟩
        · omega
        · omega
    · intro hle
      by_cases hs : owner.by_.source = e.by_.source
      · exact .inl hs
      · -- two sources never have the same priority
        have hne : owner.by_.priority ≠ e.by_.priority := fun h => hs (hsame.mp h)
        exact .inr (.inr (.inl (by omega)))

/-- **The preferred source is protected.** As long as no event repeats the value of a source preferred to its
    own, a field has the value of the last event, among those that carried it, of the source preferred to all
    others. -/
theorem preferred_source_protected
    (hrun : Run (mergeStep .sourcePriority) (RepeatsForward Preferred) .empty es l) (hprio : Prioritized es)
    {pre post : List (Incoming K V)} (hes : es = pre ++ e :: post) (hv : e.fields.lookup f = some v)
    (hlowest : ∀ x ∈ es, x.Carries f → e.by_.priority ≤ x.by_.priority)
    (hrecent : ∀ x ∈ post, x.Carries f → x.by_.source ≠ e.by_.source) : l.fields f = some v := by
  have hpre : ∀ x ∈ pre, x ∈ es := fun x hx => by
    rw [hes]
    exact List.mem_append_left _ hx
  have hpost : ∀ x ∈ post, x ∈ es := fun x hx => by
    rw [hes]
    exact List.mem_append_right _ (.tail _ hx)
  have hin : e ∈ es := by
    rw [hes]
    exact List.mem_append_right _ (.head _)
  have hcarries : e.Carries f := by
    rw [Incoming.Carries, hv]
    rfl
  have hlast : LastMax (Incoming.Carries f) (fun e => -e.by_.priority) es e := by
    refine ⟨pre, post, hes, hcarries, fun x hx hc => ?_, fun x hx hc => ?_⟩
    · have hle := hlowest x (hpre x hx) hc
      show -x.by_.priority ≤ -e.by_.priority
      omega
    · have hle := hlowest x (hpost x hx) hc
      have hne : x.by_.priority ≠ e.by_.priority :=
        fun h => hrecent x hx hc ((hprio x (hpost x hx) e hin).mp h)
      show -x.by_.priority < -e.by_.priority
      omega
  rcases sourcePriority_ranked hrun hprio f with ⟨_, hnone⟩ | ⟨owner, v0, howner, hv0, hat⟩
  · exact absurd hcarries (hnone e hin)
  · rw [howner.unique hlast, hv] at hv0
    rw [Option.some.inj hv0]
    exact congrArg Prod.fst hat

end SourcePriority

/-! ## Two sources -/

def single (source value : String) (time : Time) (priority : Int) : Incoming Nat String where
  fields := (∅ : AList (fun _ : Nat => String)).insert 0 value
  by_ := ⟨source, 1, time, priority⟩

/-- `"x"` at time 10 from A; `"x"` at 5, then `"y"` at 7 from B. -/
def fromA : List (Incoming Nat String) := [single "a" "x" 10 1]

def fromB : List (Incoming Nat String) := [single "b" "x" 5 2, single "b" "y" 7 2]

theorem repeatsForward_single {after : Provenance → Provenance → Prop} {l : Ledger Nat String}
    {source value : String}
    {time : Time} {priority : Int} (h : l.fields 0 = some value → ∀ p, l.provenance 0 = some p →
      p.source ≠ source →
      after p ⟨source, 1, time, priority⟩) : RepeatsForward after l (single source value time priority) := by
  intro f v p hv hat hs
  unfold single at hv
  by_cases hf : f = 0
  · subst hf
    rw [AList.lookup_insert] at hv
    rw [← Option.some.inj hv] at hat
    exact h (congrArg Prod.fst hat) p (congrArg Prod.snd hat) hs
  · rw [AList.lookup_insert_ne hf] at hv
    cases hv

theorem ofSource_append_comm {xs ys : List (Incoming Nat String)}
    (h : ∀ x ∈ xs, ∀ y ∈ ys, x.by_.source ≠ y.by_.source) (s : String) :
    ofSource s (xs ++ ys) = ofSource s (ys ++ xs) := by
  unfold ofSource
  rw [List.filter_append, List.filter_append]
  by_cases hx : ∃ x ∈ xs, x.by_.source = s
  · obtain ⟨x, hx, rfl⟩ := hx
    have hnone : ys.filter (fun e => e.by_.source = x.by_.source) = [] :=
      List.filter_eq_nil_iff.mpr (fun y hy => by simpa using (h x hx y hy).symm)
    rw [hnone, List.nil_append, List.append_nil]
  · have hnone : xs.filter (fun e => e.by_.source = s) = [] :=
      List.filter_eq_nil_iff.mpr (fun x hmem => by simpa using fun heq => hx ⟨x, hmem, heq⟩)
    rw [hnone, List.nil_append, List.append_nil]

theorem last_write_converges_ab : ∃ l l' : Ledger Nat String,
      Run (mergeStep .lastWriteWins) (RepeatsForward Later) .empty (fromB ++ fromA) l ∧
      Run (mergeStep .lastWriteWins) (RepeatsForward Later) .empty
        [single "b" "x" 5 2, single "a" "x" 10 1, single "b" "y" 7 2] l' ∧
      l.fields = l'.fields ∧ l.fields 0 = some "x" := by
  have hrun : Run (mergeStep .lastWriteWins) (RepeatsForward Later) .empty (fromB ++ fromA)
      ((fromB ++ fromA).foldl (Ledger.merge .lastWriteWins) .empty) := by
    refine Run.head (repeatsForward_single fun hp => ?_) rfl
      (Run.head (repeatsForward_single fun hp => ?_) rfl
      (Run.single (repeatsForward_single fun hp => ?_) rfl))
    · cases hp
    · exact absurd hp (by decide +kernel)
    · exact absurd hp (by decide +kernel)
  have hrun' : Run (mergeStep .lastWriteWins) (RepeatsForward Later) .empty
      [single "b" "x" 5 2, single "a" "x" 10 1, single "b" "y" 7 2]
      ([single "b" "x" 5 2, single "a" "x" 10 1, single "b" "y" 7 2].foldl (Ledger.merge .lastWriteWins) .empty) := by
    refine Run.head (repeatsForward_single fun hp => ?_) rfl
      (Run.head (repeatsForward_single fun _ p hp _ => ?_) rfl
      (Run.single (repeatsForward_single fun hp => ?_) rfl))
    · cases hp
    · -- A repeats B's value five time units later
      have hprov : some p = some (⟨"b", 1, 5, 2⟩ : Provenance) := hp.symm.trans (by decide +kernel)
      rw [Option.some.inj hprov, Later]
      decide
    · exact absurd hp (by decide +kernel)
  have hstreams : Streams (fromB ++ fromA) := by simp [Streams, fromA, fromB, single]
  have hsame : ∀ s, ofSource s [single "b" "x" 5 2, single "a" "x" 10 1, single "b" "y" 7 2]
      = ofSource s (fromB ++ fromA) := by
    intro s
    have hswap : ofSource s (fromA ++ [single "b" "y" 7 2]) = ofSource s ([single "b" "y" 7 2] ++ fromA) :=
      ofSource_append_comm (by simp [fromA, single]) s
    show ofSource s ([single "b" "x" 5 2] ++ (fromA ++ [single "b" "y" 7 2]))
      = ofSource s ([single "b" "x" 5 2] ++ ([single "b" "y" 7 2] ++ fromA))
    unfold ofSource at hswap ⊢
    rw [List.filter_append, hswap, ← List.filter_append]
  obtain ⟨heq, _⟩ := last_write_converges hstreams hsame hrun hrun'
  exact ⟨_, _, hrun, hrun', heq, by decide +kernel⟩

/-- **An older event undoes a newer one**: B repeats A's value, becomes its owner with an older time, and goes
    on to change it. The other interleaving keeps A's value, the latest. -/
theorem older_write_wins : Streams (fromA ++ fromB) ∧
      (∀ s, ofSource s (fromB ++ fromA) = ofSource s (fromA ++ fromB)) ∧
      ((fromA ++ fromB).foldl (Ledger.merge .lastWriteWins) .empty).fields 0 = some "y" ∧
      ((fromB ++ fromA).foldl (Ledger.merge .lastWriteWins) .empty).fields 0 = some "x" := by
  refine ⟨by simp [Streams, fromA, fromB, single], ?_, by decide +kernel, by decide +kernel⟩
  exact ofSource_append_comm (by simp [fromA, fromB, single])

theorem preferred_source_protected_ab : ∃ l : Ledger Nat String,
      Run (mergeStep .sourcePriority) (RepeatsForward Preferred) .empty
        [single "b" "x" 5 2, single "a" "z" 6 1, single "b" "y" 7 2] l ∧ l.fields 0 = some "z" := by
  have hrun : Run (mergeStep .sourcePriority) (RepeatsForward Preferred) .empty
      [single "b" "x" 5 2, single "a" "z" 6 1, single "b" "y" 7 2]
      ([single "b" "x" 5 2, single "a" "z" 6 1, single "b" "y" 7 2].foldl (Ledger.merge .sourcePriority) .empty) := by
    refine Run.head (repeatsForward_single fun hp => ?_) rfl
      (Run.head (repeatsForward_single fun hp => ?_) rfl
      (Run.single (repeatsForward_single fun hp => ?_) rfl))
    · cases hp
    · exact absurd hp (by decide +kernel)
    · exact absurd hp (by decide +kernel)
  have hprio : Prioritized [single "b" "x" 5 2, single "a" "z" 6 1, single "b" "y" 7 2] := by
    simp [Prioritized, single]
  have hes : [single "b" "x" 5 2, single "a" "z" 6 1, single "b" "y" 7 2]
      = [single "b" "x" 5 2] ++ single "a" "z" 6 1 :: [single "b" "y" 7 2] := rfl
  refine ⟨_, hrun, preferred_source_protected hrun hprio hes rfl ?_ ?_⟩
  · simp [single]
  · simp [single]

/-- **The preferred source is overruled**: A, whose priority is 1, sets `"x"`; B, whose priority is 2, repeats
    it and then changes it. -/
theorem preferred_source_overruled : Prioritized (fromA ++ fromB) ∧
      ((fromA ++ fromB).foldl (Ledger.merge .sourcePriority) .empty).fields 0 = some "y" := by
  refine ⟨?_, by decide +kernel⟩
  simp [Prioritized, fromA, fromB, single]

end SyncForge.Conflict
