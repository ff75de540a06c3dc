import SyncForge.Bridge.OneSided

/-!
# `Bridge.FieldMerge` — two edits of different fields

A webhook carries the whole record, so an edit also asserts the old values of all other fields and makes its
provider the owner of all of them. The other provider's event then wins all its conflicts or loses all: two
edits of different fields, made before either is handled, never both survive.
-/

namespace SyncForge.Bridge

open Relay (Side)
open Transition
open Deployment (inSync link linked linked_shows)
open Function (update update_of_ne update_self)

/-! ## Two notes -/

section Abstract

variable {S : Setting} {s : State} {n m : Note} {f : Field}

theorem handle_canonical_cases (s : State) (n : Note) (f : Field) :
    (s.handle S n).canonical f = s.canonical f ∨ (s.handle S n).canonical f = n.values f := by
  unfold State.handle
  split_ifs
  · exact .inl rfl
  · show (s.mergeNote S n f).1 = _ ∨ (s.mergeNote S n f).1 = _
    unfold State.mergeNote
    rcases mergeField_cases (s.canonical f) (s.provenance f) (n.provenance S) (n.values f) with h |
      ⟨p, _, _, _, _, h⟩
    · right; rw [h]
    · left; rw [h]

theorem handle_canonical_of_eq (h : n.values f = s.canonical f) :
    (s.handle S n).canonical f = s.canonical f := by
  rcases handle_canonical_cases s n f with h' | h'
  · exact h'
  · exact h'.trans h

theorem apply_provenance_of_eq (h : n.values f = s.canonical f) :
    (s.apply S n).provenance f = some (n.provenance S) := by
  show some (s.mergeNote S n f).2 = _
  unfold State.mergeNote
  rcases mergeField_cases (s.canonical f) (s.provenance f) (n.provenance S) (n.values f) with h' |
    ⟨p, _, _, hne, _, _⟩
  · rw [h']
  · exact absurd h.symm hne

theorem apply_provenance_of_taken (hne : n.values f ≠ s.canonical f)
    (h : (s.apply S n).canonical f = n.values f) : (s.apply S n).provenance f = some (n.provenance S) := by
  have h1 : (s.mergeNote S n f).1 = n.values f := h
  show some (s.mergeNote S n f).2 = _
  unfold State.mergeNote at h1 ⊢
  rcases mergeField_cases (s.canonical f) (s.provenance f) (n.provenance S) (n.values f) with h' |
    ⟨p, _, _, _, _, h'⟩
  · rw [h']
  · rw [h'] at h1
    exact absurd h1.symm hne

theorem apply_canonical_of_owned {p : Conflict.Provenance} (hown : s.provenance f = some p)
    (hsource : p.source ≠ (n.provenance S).source) (hne : n.values f ≠ s.canonical f) :
    (s.apply S n).canonical f = if beats p (n.provenance S) then n.values f else s.canonical f := by
  show (mergeField (s.canonical f) (s.provenance f) (n.provenance S) (n.values f)).1 = _
  rw [hown, mergeField]
  by_cases hbeats : beats p (n.provenance S)
  · rw [if_pos hbeats, if_pos (.inr (.inr hbeats))]
  · rw [if_neg hbeats, if_neg]
    rintro (h | h | h)
    · exact hsource h
    · exact hne h.symm
    · exact hbeats h

/-- **One of the two is lost.** A note that changes one field, then one of the other provider that changes
    another. -/
theorem handle_two_loses {c : Values} {f g : Field} {x y : String} {s1 : State} (hc : s.canonical = c)
    (hfg : f ≠ g) (hx : x ≠ c f) (hy : y ≠ c g) (hn : n.values = update c f x) (hm : m.values = update c g y)
    (hside : m.side = n.side.other) (hcanonical : s1.canonical = (s.handle S n).canonical)
    (hprovenance : s1.provenance = (s.handle S n).provenance) :
    ¬ ((s1.handle S m).canonical f = x ∧ (s1.handle S m).canonical g = y) := by
  rintro ⟨hf, hg⟩
  have hmf : m.values f = c f := by rw [hm, update_of_ne hfg]
  have hmg : m.values g = y := by rw [hm, update_self]
  have hnf : n.values f = x := by rw [hn, update_self]
  have hng : n.values g = c g := by rw [hn, update_of_ne hfg.symm]
  -- the first note leaves the other field alone, and its own value must have been taken over
  have hg1 : s1.canonical g = c g := by
    rw [hcanonical, handle_canonical_of_eq (by rw [hng, hc]), hc]
  have hf1 : s1.canonical f = x := by
    rcases handle_canonical_cases s1 m f with h | h
    · exact h.symm.trans hf
    · exact absurd (hf.symm.trans (h.trans hmf)) hx
  have happlied : s.handle S n = s.apply S n := by
    unfold State.handle
    split_ifs with hdrop
    · rw [hcanonical, State.handle, if_pos hdrop, hc] at hf1
      exact absurd hf1.symm hx
    · rfl
  rw [happlied] at hcanonical hprovenance
  have howner : ∀ k ∈ [f, g], s1.provenance k = some (n.provenance S) := by
    intro k hk
    rw [hprovenance]
    rcases List.mem_cons.mp hk with rfl | hk
    · apply apply_provenance_of_taken
      · rwa [hnf, hc]
      · rw [← hcanonical, hf1, hnf]
    · rw [List.mem_singleton.mp hk]
      exact apply_provenance_of_eq (by rw [hng, hc])
  have hsource : (n.provenance S).source ≠ (m.provenance S).source := by
    show S.name n.side ≠ S.name m.side
    rw [hside]
    exact fun h => n.side.ne_other (S.name_injective h)
  -- so both fields are decided by the same comparison
  have happlied' : s1.handle S m = s1.apply S m := by
    unfold State.handle
    split_ifs with hdrop
    · rw [State.handle, if_pos hdrop, hg1] at hg
      exact absurd hg.symm hy
    · rfl
  rw [happlied'] at hf hg
  rw [apply_canonical_of_owned (howner f (by simp)) hsource (by rw [hmf, hf1]; exact hx.symm), hmf, hf1] at hf
  rw [apply_canonical_of_owned (howner g (by simp)) hsource (by rw [hmg, hg1]; exact hy), hmg, hg1] at hg
  split_ifs at hf hg with hbeats
  · exact hx hf.symm
  · exact hy hg.symm

theorem find?_handle_pending {p : Note → Bool} (h : s.pending.find? p = some m) :
    (s.handle S n).pending.find? p = some m := by
  unfold State.handle
  split_ifs
  · exact h
  · show (s.pending ++ [_]).find? p = some m
    rw [List.find?_append, h]
    rfl

end Abstract

/-! ## Two edits -/

section Worker

variable {env : Env} {L : Link env} {w w' : World} {s : State}

def Link.editField (L : Link env) (x : Side) (f : Field) (text : String) : Deed :=
  .edit x ((∅ : Data).insert ((L.adapter x).native f) (.str text))

theorem writtenValues_field (a : Adapter) (f : Field) (text : String) (old : Data) :
    writtenValues a ((∅ : Data).insert (a.native f) (.str text)) old
      = update (fun g => Adapter.s (old.get (a.native g))) f text := by
  funext g
  by_cases hg : g = f
  · subst hg
    have hmem : a.native g ∈ (∅ : Data).insert (a.native g) (.str text) := (AList.mem_insert _).mpr (.inl rfl)
    rw [update_self, writtenValues, Data.get, AList.lookup_union_left hmem, AList.lookup_insert]
    rfl
  · have hne : a.native g ≠ a.native f := fun h => hg (a.native_injective h)
    have hmem : a.native g ∉ (∅ : Data).insert (a.native f) (.str text) := by
      rw [AList.mem_insert]
      rintro (h | h)
      · exact hne h
      · exact AList.notMem_empty _ h
    rw [update_of_ne hg, writtenValues, Data.get, AList.lookup_union_right hmem]
    rfl

theorem Shows.editField (h : Shows L w s) (x : Side) (f : Field) (text : String) :
    ∃ w', Bridge.next L w (L.editField x f text) = some w' ∧
      Shows L w' (s.write x (update (s.held x).values f text)) := by
  obtain ⟨old, r, hold, _, _, hnext, hshows⟩ :=
    h.edit x ((∅ : Data).insert ((L.adapter x).native f) (.str text))
  rw [writtenValues_field, funext hold] at hshows
  exact ⟨_, hnext, hshows⟩

/-- **One of two concurrent edits is lost.** The customer is in sync and nothing is under way; field `f` is
    changed at A and field `g` at B, and then both webhooks are handled, in either order: the canonical record
    does not have both new values. -/
theorem concurrent_edits_lose_one (h : Shows L w s) (hquiet : w.outbox = [])
    (hsync : ∀ x, (s.held x).values = s.canonical) {f g : Field} (hfg : f ≠ g) {x y : String}
    (hx : x ≠ s.canonical f) (hy : y ≠ s.canonical g) (first : Side) : ∃ w', Run (next L) (fun _ _ => True) w
        [L.editField .a f x, L.editField .b g y, .handle first, .handle first.other] w' ∧
      ∃ c, w'.db.canonical.get? L.key = some c ∧
      ¬ (c.fields f = some (.str x) ∧ c.fields g = some (.str y)) := by
  obtain ⟨w1, hw1, h1⟩ := h.editField .a f x
  obtain ⟨w2, hw2, h2⟩ := h1.editField .b g y
  have hheld : ((s.write .a (update (s.held .a).values f x)).held .b).values = s.canonical := by
    rw [State.held_write_ne _ _ (by decide)]
    exact hsync .b
  rw [hheld, hsync .a] at h2
  let na : Note := ⟨.a, (s.held .a).version + 1, s.clock .a, update s.canonical f x⟩
  let nb : Note := ⟨.b, (s.held .b).version + 1, s.clock .b, update s.canonical g y⟩
  let s2 := (s.write .a (update s.canonical f x)).write .b (update s.canonical g y)
  have hpending : s2.pending = [na, nb] := by
    show s.pending ++ [_] ++ [_] = _
    rw [h.quiet.mp hquiet, State.held_write_ne _ _ (by decide)]
    rfl
  -- the two notes by the order in which they are handled
  obtain ⟨n, m, hn, hm, hside, hlost⟩ : ∃ n m, s2.pending.find? (isFrom first) = some n ∧
      (s2.pending.eraseP (isFrom first)).find? (isFrom first.other) = some m ∧ m.side = n.side.other ∧
      ∀ t u : State, t.canonical = s.canonical → u.canonical = (t.handle L.setting n).canonical →
        u.provenance = (t.handle L.setting n).provenance →
        ¬ ((u.handle L.setting m).canonical f = x ∧ (u.handle L.setting m).canonical g = y) := by
    rw [hpending]
    cases first with
    | a =>
      exact ⟨na, nb, rfl, rfl, rfl, fun t u ht hu hp => handle_two_loses ht hfg hx hy rfl rfl rfl hu hp⟩
    | b =>
      refine ⟨nb, na, rfl, rfl, rfl, fun t u ht hu hp hboth => ?_⟩
      exact handle_two_loses (m := na) ht hfg.symm hy hx rfl rfl rfl hu hp hboth.symm
  let s3 := ({ s2 with pending := s2.pending.eraseP (isFrom first) } : State).handle L.setting n
  have hstep3 : step L.setting s2 (.handle first) = some s3 := congrArg (Option.map _) hn
  obtain ⟨w3, hw3, h3⟩ := h2.act hstep3
  let s4 := ({ s3 with pending := s3.pending.eraseP (isFrom first.other) } : State).handle L.setting m
  have hstep4 : step L.setting s3 (.handle first.other) = some s4 :=
    congrArg (Option.map _) (find?_handle_pending hm)
  obtain ⟨w4, hw4, h4⟩ := h3.act hstep4
  refine ⟨w4, .head trivial hw1 (.head trivial hw2 (.head trivial hw3 (.head trivial hw4 .refl))), ?_⟩
  obtain ⟨c, hc, hrec⟩ := h4.canonical
  refine ⟨c, hc, ?_⟩
  rintro ⟨hf, hg⟩
  rw [hrec.fields] at hf hg
  refine hlost { s2 with pending := s2.pending.eraseP (isFrom first) }
    { s3 with pending := s3.pending.eraseP (isFrom first.other) } rfl rfl rfl ⟨?_, ?_⟩
  · exact Any.str.inj (Option.some.inj hf)
  · exact Any.str.inj (Option.some.inj hg)

theorem concurrent_edits_ann : ∃ w', Run (next (link true)) (fun _ _ => True)
      (linked true) [(link true).editField .a .phone "1",
        (link true).editField .b .company "c", .handle .a, .handle (Side.a).other] w' ∧
    ∃ c, w'.db.canonical.get? (link true).key = some c ∧
      ¬ (c.fields .phone = some (.str "1") ∧ c.fields .company = some (.str "c")) :=
  concurrent_edits_lose_one (linked_shows true) rfl (fun _ => rfl) (by decide) (by decide) (by decide) .a

/-- **The company is lost** in either order, under field merge. -/
theorem company_lost : (∀ x, ((link true).policy x).conflictStrategy = .fieldMerge) ∧
    Shows (link true) (linked true) inSync ∧
    (linked true).outbox = [] ∧ (∀ x, (inSync.held x).values = inSync.canonical) ∧
    ∀ first, ∃ w', Run (next (link true)) (fun _ _ => True) (linked true)
        [(link true).editField .a .phone "1", (link true).editField .b .company "c",
          .handle first, .handle first.other] w' ∧
      ∃ c, w'.db.canonical.get? (link true).key = some c ∧ c.fields .company = some (.str "") := by
  have h := linked_shows true
  refine ⟨fun x => by cases x <;> rfl, h, rfl, fun _ => rfl, fun first => ?_⟩
  obtain ⟨w1, hw1, h1⟩ := h.editField .a .phone "1"
  obtain ⟨w2, hw2, h2⟩ := h1.editField .b .company "c"
  cases first with
  | a =>
    obtain ⟨w3, hw3, h3⟩ := h2.act (a := .handle .a) rfl
    obtain ⟨w4, hw4, h4⟩ := h3.act (a := .handle .b) rfl
    obtain ⟨c, hc, hrec⟩ := h4.canonical
    refine ⟨w4, .head trivial hw1 (.head trivial hw2 (.head trivial hw3 (.head trivial hw4 .refl))), c,
      hc, ?_⟩
    rw [hrec.fields]
    rfl
  | b =>
    obtain ⟨w3, hw3, h3⟩ := h2.act (a := .handle .b) rfl
    obtain ⟨w4, hw4, h4⟩ := h3.act (a := .handle .a) rfl
    obtain ⟨c, hc, hrec⟩ := h4.canonical
    refine ⟨w4, .head trivial hw1 (.head trivial hw2 (.head trivial hw3 (.head trivial hw4 .refl))), c,
      hc, ?_⟩
    rw [hrec.fields]
    rfl

end Worker

end SyncForge.Bridge
