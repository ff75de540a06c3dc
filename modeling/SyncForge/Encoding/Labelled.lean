import Mathlib.Data.List.Infix

/-!
# `Encoding.Labelled` — values between labels

A text made of values with a label before each but the first, nothing escaped. Such a text can be read in one
way exactly if no value holds the label that stands before it or the one that stands after it
(`Clear.join_inj`, `exists_join_eq`): a label starts with a character that it does not hold again, so no label
is found partly in a value and partly in a label.
-/

namespace Encoding

variable {α : Type} {bar : α} {k label u v v' x y : List α} {rest rest' : List (List α × List α)}

/-- A first value, and each further one after its label. -/
def join (v : List α) : List (List α × List α) → List α
  | [] => v
  | (label, v') :: rest => v ++ (label ++ join v' rest)

/-- No value holds the label before it or the label after it. -/
def Clear (v : List α) : List (List α × List α) → Prop
  | [] => True
  | (label, v') :: rest => ¬ label <:+: v ∧ ¬ label <:+: v' ∧ Clear v' rest

instance Clear.decidable [DecidableEq α] : (v : List α) → (rest : List (List α × List α)) →
    Decidable (Clear v rest)
  | _, [] => .isTrue trivial
  | v, (label, v') :: rest =>
    have := Clear.decidable v' rest
    inferInstanceAs (Decidable (¬ label <:+: v ∧ ¬ label <:+: v' ∧ Clear v' rest))

structure Labels (bar : α) (labels : List (List α)) : Prop where
  bars : ∀ label ∈ labels, ∃ body, label = bar :: body ∧ bar ∉ body
  free : ∀ k ∈ labels, ∀ label ∈ labels, k <+: label → k = label

theorem Labels.tail {labels : List (List α)} (h : Labels bar (label :: labels)) : Labels bar labels :=
  ⟨fun k hk => h.bars k (.tail _ hk), fun k hk k' hk' => h.free k (.tail _ hk) k' (.tail _ hk')⟩

/-! ## Where two readings part -/

/-- A label found after a beginning of another label's text is found after that label. -/
theorem label_within (hk : ∃ body, k = bar :: body ∧ bar ∉ body)
    (hlabel : ∃ body, label = bar :: body ∧ bar ∉ body) (hu : u ≠ []) (h : k ++ x = u ++ (label ++ y)) :
    ∃ m, u = k ++ m ∧ x = m ++ (label ++ y) := by
  obtain ⟨body, rfl, hbody⟩ := hk
  obtain ⟨body', rfl, -⟩ := hlabel
  rcases List.append_eq_append_iff.mp h with ⟨m, hm, hx⟩ | ⟨m, hm, hy⟩
  · exact ⟨m, hm, hx⟩
  · cases m with
    | nil => exact ⟨[], by simpa using hm.symm, hy.symm⟩
    | cons a m =>
      -- the second label would start inside the first
      obtain ⟨b, u, rfl⟩ := List.exists_cons_of_ne_nil hu
      have ha : bar = a := (List.cons.inj hy).1
      have hmem : bar ∈ body := by
        rw [(List.cons.inj hm).2, ha]
        exact List.mem_append_right _ (.head _)
      exact absurd hmem hbody

theorem join_cut (hk : ∃ body, k = bar :: body ∧ bar ∉ body)
    (hlabel : ∃ body, label = bar :: body ∧ bar ∉ body) (h : u ++ (k ++ x) = v ++ (label ++ y)) :
      (u = v ∧ k ++ x = label ++ y) ∨ (∃ m, u = v ++ (label ++ m)) ∨ ∃ m, x = m ++ (label ++ y) := by
  rcases List.append_eq_append_iff.mp h with ⟨m, rfl, hx⟩ | ⟨m, rfl, hy⟩
  · rcases eq_or_ne m [] with rfl | hm
    · exact .inl ⟨(List.append_nil _).symm, hx⟩
    · obtain ⟨m', -, hx⟩ := label_within hk hlabel hm hx
      exact .inr (.inr ⟨m', hx⟩)
  · rcases eq_or_ne m [] with rfl | hm
    · exact .inl ⟨List.append_nil _, hy.symm⟩
    · obtain ⟨m', rfl, -⟩ := label_within hlabel hk hm hy
      exact .inr (.inl ⟨m', rfl⟩)

/-- No reading of a clear text finds all its labels after one that the first value does not hold. -/
theorem Clear.no_late (hlabels : Labels bar (label :: rest.map Prod.fst))
    (hsame : rest'.map Prod.fst = rest.map Prod.fst) (hv : ¬ label <:+: v) (hclear : Clear v rest) :
    join v rest ≠ u ++ (label ++ join v' rest') := by
  -- by induction on the labels: the one looked for lies behind the next label, and then so does that one
  induction rest generalizing label v u v' rest' with
  | nil =>
    intro h
    exact hv ⟨u, join v' rest', by rw [List.append_assoc]; exact h.symm⟩
  | cons p rest ih =>
    obtain ⟨k, w⟩ := p
    obtain ⟨⟨k', w'⟩, rest', rfl, rfl, hrest⟩ := List.map_eq_cons_iff.mp hsame
    obtain ⟨-, hw, hclear⟩ := hclear
    have hk := hlabels.bars k' (.tail _ (.head _))
    have hbehind : ∀ m, join w rest ≠ m ++ (k' ++ join w' rest') := fun m => ih hlabels.tail hrest hw hclear
    intro h
    rcases join_cut hk (hlabels.bars label (.head _)) h with ⟨rfl, hx⟩ | ⟨m, rfl⟩ | ⟨m, hx⟩
    · have heq : k' = label := by
        rcases List.prefix_or_prefix_of_prefix (List.prefix_append k' _) (hx ▸ List.prefix_append label _) with hp | hp
        · exact hlabels.free k' (.tail _ (.head _)) label (.head _) hp
        · exact (hlabels.free label (.head _) k' (.tail _ (.head _)) hp).symm
      subst heq
      exact hbehind v' (List.append_cancel_left hx)
    · exact hv ⟨u, m, List.append_assoc _ _ _⟩
    · refine hbehind (m ++ (label ++ v')) (hx.trans ?_)
      simp only [join, List.append_assoc]

/-- **A clear text is read in one way.** -/
theorem Clear.join_inj (hlabels : Labels bar (rest.map Prod.fst))
    (hsame : rest'.map Prod.fst = rest.map Prod.fst) (hclear : Clear v rest)
    (h : join v rest = join v' rest') : v = v' ∧ rest = rest' := by
  induction rest generalizing v v' rest' with
  | nil =>
    obtain rfl := List.map_eq_nil_iff.mp hsame
    exact ⟨h, rfl⟩
  | cons p rest ih =>
    obtain ⟨k, w⟩ := p
    obtain ⟨⟨k', w'⟩, rest', rfl, rfl, hrest⟩ := List.map_eq_cons_iff.mp hsame
    obtain ⟨hv, hw, hclear⟩ := hclear
    have hk := hlabels.bars k' (.head _)
    rcases join_cut hk hk h with ⟨rfl, hx⟩ | ⟨m, rfl⟩ | ⟨m, hx⟩
    · obtain ⟨rfl, rfl⟩ := ih hlabels.tail hrest hclear (List.append_cancel_left hx)
      exact ⟨rfl, rfl⟩
    · exact absurd ⟨v', m, List.append_assoc _ _ _⟩ hv
    · exact absurd hx (hclear.no_late hlabels hrest hw)

/-! ## A text that is not clear -/

theorem join_append (rest : List (List α × List α)) : join (u ++ v) rest = u ++ join v rest := by
  cases rest with
  | nil => rfl
  | cons p rest => exact List.append_assoc _ _ _

/-- **A text that is not clear can be read in another way**: a value that holds a label next to it is cut
    there. -/
theorem exists_join_eq (hlabels : Labels bar (rest.map Prod.fst)) (hnot : ¬ Clear v rest) :
    ∃ v' rest', rest'.map Prod.fst = rest.map Prod.fst ∧ join v' rest' = join v rest ∧
    ¬ (v' = v ∧ rest' = rest) := by
  induction rest generalizing v with
  | nil => exact absurd trivial hnot
  | cons p rest ih =>
    obtain ⟨k, w⟩ := p
    obtain ⟨body, hbar, -⟩ := hlabels.bars k (.head _)
    have hk : 0 < k.length := hbar ▸ Nat.succ_pos _
    by_cases hv : k <:+: v
    · obtain ⟨s, t, rfl⟩ := hv
      refine ⟨s, (k, t ++ (k ++ w)) :: rest, rfl, ?_, fun h => ?_⟩
      · simp only [join, join_append, List.append_assoc]
      · have hlen := congrArg List.length h.1
        simp only [List.length_append] at hlen
        omega
    · by_cases hw : k <:+: w
      · obtain ⟨s, t, rfl⟩ := hw
        refine ⟨v ++ (k ++ s), (k, t) :: rest, rfl, ?_, fun h => ?_⟩
        · simp only [join, join_append, List.append_assoc]
        · have hlen := congrArg List.length h.1
          simp only [List.length_append] at hlen
          omega
      · obtain ⟨w', rest', hsame, hjoin, hne⟩ := ih hlabels.tail (fun h => hnot ⟨hv, hw, h⟩)
        refine ⟨v, (k, w') :: rest', congrArg (k :: ·) hsame, by simp only [join, hjoin], fun h => hne ?_⟩
        obtain ⟨hp, hrest⟩ := List.cons.inj h.2
        exact ⟨congrArg Prod.snd hp, hrest⟩

end Encoding
