import Bourse.Proofs.Ends

/-!
# Two actions side by side

`Paired act act' s s' R B` says that the two actions, started in `s` and in `s'`, end alike: both
answer the same, in states that `R` relates, or both break off with the same failure, in states
that `B` relates. What they write into their journals is not compared.

As for `Action.Ends` there is one lemma for each way of putting actions together, so that two runs
of one function are compared along its text. Where only one of the two runs moves, `Paired.left`
lets it.

An action that does the same on related states, whatever they are, is `Parallel`.
-/

namespace Bourse.Action

variable {σ τ α β : Type} {s : Logged σ} {s' : Logged τ}

/-- The actions give the same answer, or break off with the same failure. -/
def Paired (act : Action σ α) (act' : Action τ α) (s : Logged σ) (s' : Logged τ)
    (R : α → σ → τ → Prop) (B : σ → τ → Prop) : Prop :=
  match act s, act' s' with
  | .ok a t, .ok a' t' => a = a' ∧ R a t.state t'.state
  | .error f t, .error f' t' => f = f' ∧ B t.state t'.state
  | _, _ => False

namespace Paired

variable {act : Action σ α} {act' : Action τ α} {next : α → Action σ β} {next' : α → Action τ β}
  {R R' : α → σ → τ → Prop} {Q : β → σ → τ → Prop} {B B' : σ → τ → Prop}

/-- Both relations can be weakened. -/
theorem mono (h : Paired act act' s s' R B) (hR : ∀ a t t', R a t t' → R' a t t')
    (hB : ∀ t t', B t t' → B' t t') : Paired act act' s s' R' B' := by
  unfold Paired at *
  cases ha : act s <;> cases ha' : act' s' <;> rw [ha, ha'] at h
  · exact ⟨h.1, hR _ _ _ h.2⟩
  · exact h
  · exact h
  · exact ⟨h.1, hB _ _ h.2⟩

/-- Putting actions in sequence: the first two end in states from which the second two are
compared. -/
theorem bind (h : Paired act act' s s' R B)
    (hnext : ∀ a t t', R a t.state t'.state → Paired (next a) (next' a) t t' Q B) :
    Paired (act >>= next) (act' >>= next') s s' Q B := by
  unfold Paired at h
  show (match EStateM.bind act next s, EStateM.bind act' next' s' with
    | .ok a t, .ok a' t' => a = a' ∧ Q a t.state t'.state
    | .error f t, .error f' t' => f = f' ∧ B t.state t'.state
    | _, _ => False)
  unfold EStateM.bind
  cases ha : act s <;> cases ha' : act' s' <;> rw [ha, ha'] at h
  · obtain ⟨rfl, hR⟩ := h
    exact hnext _ _ _ hR
  · exact h.elim
  · exact h.elim
  · exact h

/-- Only the first of two runs moves. -/
theorem left {act : Action σ α} {act' : Action τ β} {next : α → Action σ β}
    (h : Ends act s (fun a t => Paired (next a) act' t s' Q B) (fun _ _ => False)) :
    Paired (act >>= next) act' s s' Q B := by
  unfold Ends at h
  show (match EStateM.bind act next s, act' s' with
    | .ok a t, .ok a' t' => a = a' ∧ Q a t.state t'.state
    | .error f t, .error f' t' => f = f' ∧ B t.state t'.state
    | _, _ => False)
  unfold EStateM.bind
  cases ha : act s <;> rw [ha] at h
  · exact h
  · exact h.elim

/-- What is known of the first run alone may be used. -/
theorem andLeft {P : α → σ → Prop} {E : σ → Prop} (h : Paired act act' s s' R B)
    (hleft : Ends act s (fun a t => P a t.state) fun _ t => E t.state) :
    Paired act act' s s' (fun a t t' => R a t t' ∧ P a t) fun t t' => B t t' ∧ E t := by
  unfold Paired Ends at *
  cases ha : act s <;> cases ha' : act' s' <;> rw [ha, ha'] at h <;> rw [ha] at hleft
  · exact ⟨h.1, h.2, hleft⟩
  · exact h
  · exact h
  · exact ⟨h.1, h.2, hleft⟩

/-- What is known of the second run alone may be used. -/
theorem andRight {P : α → τ → Prop} {E : τ → Prop} (h : Paired act act' s s' R B)
    (hright : Ends act' s' (fun a t => P a t.state) fun _ t => E t.state) :
    Paired act act' s s' (fun a t t' => R a t t' ∧ P a t') fun t t' => B t t' ∧ E t' := by
  unfold Paired Ends at *
  cases ha : act s <;> cases ha' : act' s' <;> rw [ha, ha'] at h <;> rw [ha'] at hright
  · obtain ⟨rfl, hR⟩ := h
    exact ⟨rfl, hR, hright⟩
  · exact h
  · exact h
  · exact ⟨h.1, h.2, hright⟩

/-- If the first run does not break off then the second does not, and ends beside it. -/
theorem ends {P : α → Logged σ → Prop} (h : Paired act act' s s' R B)
    (hends : Ends act s P (fun _ _ => False)) :
    Ends act' s' (fun a t' => ∃ t, P a t ∧ R a t.state t'.state) (fun _ _ => False) := by
  unfold Paired Ends at *
  cases ha : act s <;> cases ha' : act' s' <;> rw [ha, ha'] at h <;> rw [ha] at hends
  · obtain ⟨rfl, hR⟩ := h
    exact ⟨_, hends, hR⟩
  · exact h
  · exact h.elim
  · exact hends

/-- Where an action leads with an answer, it leads from a related state with the same one. -/
theorem leads {act : Action σ α} {act' : Action τ α} {a b : σ} {a' : τ} {x : α}
    (h : ∀ j j', Paired act act' ⟨a, j⟩ ⟨a', j'⟩ R B) (hl : Leads act a (some x) b) :
    ∃ b', Leads act' a' (some x) b' ∧ R x b b' := by
  obtain ⟨j, hl⟩ := hl
  have hends : Ends act ⟨a, j⟩ (fun y t => y = x ∧ t.state = b) (fun _ _ => False) :=
    hl.mono (fun _ _ ht => ⟨(Option.some.inj ht.1).symm, ht.2⟩) fun _ _ ht => nomatch ht.1
  obtain ⟨_, t', heq, t, ⟨rfl, rfl⟩, hR⟩ := ((h j #[]).ends hends).exists_ok
  exact ⟨t'.state, ⟨#[], .of_ok heq ⟨rfl, rfl⟩⟩, hR⟩

/-- Where an action leads from two related states, it leads with the same answer. -/
theorem leads_both {act : Action σ α} {act' : Action τ α} {a b : σ} {a' b' : τ} {x x' : α}
    (h : ∀ j j', Paired act act' ⟨a, j⟩ ⟨a', j'⟩ R B) (hl : Leads act a (some x) b)
    (hl' : Leads act' a' (some x') b') : x = x' ∧ R x b b' := by
  obtain ⟨j, hl⟩ := hl
  obtain ⟨j', hl'⟩ := hl'
  have hends : Ends act ⟨a, j⟩ (fun y t => y = x ∧ t.state = b) (fun _ _ => False) :=
    hl.mono (fun _ _ ht => ⟨(Option.some.inj ht.1).symm, ht.2⟩) fun _ _ ht => nomatch ht.1
  have hends' : Ends act' ⟨a', j'⟩ _ (fun _ _ => True) :=
    hl'.mono (fun _ _ ht => ht) fun _ _ _ => trivial
  have hboth := (((h j j').ends hends).and hends').mono (fun _ _ ht => ht) fun _ _ ht => ht.1
  obtain ⟨_, t', -, ⟨t, ⟨rfl, rfl⟩, hR⟩, heq, rfl⟩ := hboth.exists_ok
  exact ⟨(Option.some.inj heq).symm, hR⟩

/-- Actions that end as other actions do are compared as these are. -/
theorem congr {big : Action σ α} {big' : Action τ α} (h : Paired act act' s s' R B)
    (heq : big s = act s) (heq' : big' s' = act' s') : Paired big big' s s' R B := by
  unfold Paired at *
  rw [heq, heq']
  exact h

/-- Running an action on each element of a list. -/
theorem forM {γ : Type} {act : γ → Action σ PUnit} {act' : γ → Action τ PUnit}
    {P : List γ → σ → τ → Prop}
    (hstep : ∀ c rest (t : Logged σ) (t' : Logged τ), P (c :: rest) t.state t'.state →
      Paired (act c) (act' c) t t' (fun _ u u' => P rest u u') B) :
    ∀ {l : List γ} {t : Logged σ} {t' : Logged τ}, P l t.state t'.state →
      Paired (l.forM act) (l.forM act') t t' (fun _ u u' => P [] u u') B
  | [], _, _, h => ⟨rfl, h⟩
  | c :: rest, t, t', h => by
    show Paired (act c >>= fun _ => rest.forM act) (act' c >>= fun _ => rest.forM act') t t' _ B
    exact (hstep c rest t t' h).bind fun _ u u' hu => forM hstep hu

end Paired

section

variable {R : α → σ → τ → Prop} {B : σ → τ → Prop}

/-- Both actions answer, and this is what they lead to. -/
theorem paired_of_ok {act : Action σ α} {act' : Action τ α} {a : α} {t : Logged σ} {t' : Logged τ}
    (h : act s = .ok a t) (h' : act' s' = .ok a t') (hR : R a t.state t'.state) :
    Paired act act' s s' R B := by
  unfold Paired
  rw [h, h']
  exact ⟨rfl, hR⟩

/-- Two answers that are the same are paired. -/
theorem paired_pure {a : α} (h : R a s.state s'.state) :
    Paired (pure a) (pure a) s s' R B := ⟨rfl, h⟩

/-- Reading the state, which the two runs see differently. -/
theorem paired_current {next : σ → Action σ α} {next' : τ → Action τ α}
    (h : Paired (next s.state) (next' s'.state) s s' R B) :
    Paired (current >>= next) (current >>= next') s s' R B := h

/-- Two changes are paired if their results are related. -/
theorem paired_change {f : σ → σ} {f' : τ → τ} {R : Unit → σ → τ → Prop}
    (h : R () (f s.state) (f' s'.state)) : Paired (change f) (change f') s s' R B := ⟨rfl, h⟩

/-- Two replacements are paired if they are related. -/
theorem paired_replace {t : σ} {t' : τ} {R : Unit → σ → τ → Prop} (h : R () t t') :
    Paired (replace t) (replace t') s s' R B := ⟨rfl, h⟩

/-- Two events are paired, whatever they are. -/
theorem paired_log {e e' : Event} {R : Unit → σ → τ → Prop} (h : R () s.state s'.state) :
    Paired (log e) (log e') s s' R B := ⟨rfl, h⟩

/-- The journals come into nothing that follows. -/
theorem paired_log_bind {e e' : Event} {next : Unit → Action σ α} {next' : Unit → Action τ α}
    (h : ∀ t t', t.state = s.state → t'.state = s'.state →
      Paired (next ()) (next' ()) t t' R B) :
    Paired (log e >>= next) (log e' >>= next') s s' R B := h _ _ rfl rfl

/-- Two failures that are the same are paired. -/
theorem paired_fail {f : Failure} (h : B s.state s'.state) :
    Paired (fail f : Action σ α) (fail f) s s' R B := ⟨rfl, h⟩

/-- Two results that are the same are paired. -/
theorem paired_ofExcept {x : Except Failure α} (h : ∀ a, x = .ok a → R a s.state s'.state)
    (hB : B s.state s'.state) : Paired (ofExcept x) (ofExcept x) s s' R B := by
  cases x with
  | ok a => exact ⟨rfl, h a rfl⟩
  | error f => exact ⟨rfl, hB⟩

/-- On a part of the state. -/
theorem paired_within {υ ω : Type} {part : υ → σ} {put : σ → υ → υ} {part' : ω → τ}
    {put' : τ → ω → ω} {act : Action σ α} {act' : Action τ α} {t : Logged υ} {t' : Logged ω}
    {R : α → υ → ω → Prop} {B : υ → ω → Prop}
    (h : Paired act act' ⟨part t.state, t.journal⟩ ⟨part' t'.state, t'.journal⟩
      (fun a x y => R a (put x t.state) (put' y t'.state))
      fun x y => B (put x t.state) (put' y t'.state)) :
    Paired (within part put act) (within part' put' act') t t' R B := by
  unfold Paired within at *
  cases ha : act ⟨part t.state, t.journal⟩ <;> cases ha' : act' ⟨part' t'.state, t'.journal⟩ <;>
    rw [ha, ha'] at h <;> exact h

/-- Attempts are paired if the actions are. -/
theorem paired_attempt {act : Action σ α} {act' : Action τ α}
    {R : Except Failure α → σ → τ → Prop}
    (h : Paired act act' s s' (fun a => R (.ok a)) fun t t' => ∀ f, R (.error f) t t') :
    Paired (attempt act) (attempt act') s s' R B := by
  unfold Paired attempt at *
  cases ha : act s <;> cases ha' : act' s' <;> rw [ha, ha'] at h
  · exact ⟨congrArg _ h.1, h.2⟩
  · exact h.elim
  · exact h.elim
  · exact ⟨congrArg _ h.1, h.2 _⟩

end

/-! ## Actions that do not read the journal -/

/-- Whatever is in the journal, the action does the same. -/
def Unread (act : Action σ α) : Prop :=
  ∀ s s' : Logged σ, s'.state = s.state →
    Paired act act s s' (fun _ t t' => t' = t) fun t t' => t' = t

/-- Actions in sequence do not read the journal if their parts do not. -/
theorem Unread.bind {act : Action σ α} {next : α → Action σ β} (h : Unread act)
    (hnext : ∀ a, Unread (next a)) : Unread (act >>= next) := fun s s' hs =>
  (h s s' hs).bind fun a t t' ht => hnext a t t' ht

/-- An answer does not depend on the journal. -/
theorem unread_pure (a : α) : Unread (pure a : Action σ α) := fun _ _ hs => ⟨rfl, hs⟩

/-- A look at the state does not depend on the journal. -/
theorem unread_current : Unread (current : Action σ σ) := fun _ _ hs => ⟨hs.symm, hs⟩

/-- A change does not depend on the journal. -/
theorem unread_change (f : σ → σ) : Unread (change f) := fun _ _ hs => ⟨rfl, congrArg f hs⟩

/-- A replacement does not depend on the journal. -/
theorem unread_replace (t : σ) : Unread (replace t) := fun _ _ _ => ⟨rfl, rfl⟩

/-- An event does not depend on those before it. -/
theorem unread_log (e : Event) : Unread (log e : Action σ Unit) := fun _ _ hs => ⟨rfl, hs⟩

/-- A result does not depend on the journal. -/
theorem unread_ofExcept (x : Except Failure α) : Unread (ofExcept x : Action σ α) :=
  fun _ _ hs => paired_ofExcept (fun _ _ => hs) hs

/-- What a part does not read in the journal the whole does not. -/
theorem Unread.within {part : τ → σ} {put : σ → τ → τ} {act : Action σ α} (h : Unread act) :
    Unread (within part put act) := by
  intro s s' hs
  refine paired_within ((h _ _ (congrArg part hs)).mono ?_ ?_)
  · rintro _ t _ rfl
    rw [hs]
  · rintro t _ rfl
    rw [hs]

/-! ## Actions that do the same on related states -/

/-- From related states the action gives the same answer, one that `P` holds of, or breaks off with
the same failure, and ends in related states. -/
def Parallel (R : σ → σ → Prop) (P : α → Prop) (act : Action σ α) : Prop :=
  ∀ s s' : Logged σ, R s.state s'.state → Paired act act s s' (fun a t t' => P a ∧ R t t') R

namespace Parallel

variable {R : σ → σ → Prop} {P : α → Prop} {Q : β → Prop} {act : Action σ α}
  {next : α → Action σ β}

/-- Parallel actions in sequence are parallel. -/
theorem bind (h : Parallel R P act) (hnext : ∀ a, P a → Parallel R Q (next a)) :
    Parallel R Q (act >>= next) := fun s s' hs =>
  (h s s' hs).bind fun a t t' ht => hnext a ht.1 t t' ht.2

theorem pure {a : α} (h : P a) : Parallel R P (pure a) := fun _ _ hs => paired_pure ⟨h, hs⟩

theorem fail {f : Failure} : Parallel R P (fail f) := fun _ _ hs => paired_fail hs

theorem log {e : Event} : Parallel R (fun _ => True) (log e) :=
  fun _ _ hs => paired_log ⟨trivial, hs⟩

/-- A change is parallel to itself if it keeps the relation. -/
theorem change {f : σ → σ} (h : ∀ a b, R a b → R (f a) (f b)) :
    Parallel R (fun _ => True) (change f) := fun _ _ hs => paired_change ⟨trivial, h _ _ hs⟩

/-- Reading the state, of which what follows uses only what related states have in common. -/
theorem current {next : σ → Action σ β}
    (h : ∀ a b, R a b → next b = next a ∧ Parallel R Q (next a)) :
    Parallel R Q (current >>= next) := by
  intro s s' hs
  obtain ⟨heq, hnext⟩ := h _ _ hs
  refine paired_current ?_
  rw [heq]
  exact hnext s s' hs

/-- Branches of parallel actions are parallel. -/
theorem ite {c : Prop} [Decidable c] {act' : Action σ α} (h : Parallel R P act)
    (h' : Parallel R P act') : Parallel R P (if c then act else act') := by
  split
  · exact h
  · exact h'

/-- Attempts of parallel actions are parallel. -/
theorem attempt (h : Parallel R P act) : Parallel R (fun _ => True) (attempt act) := fun s s' hs =>
  paired_attempt ((h s s' hs).mono (fun _ _ _ ht => ⟨trivial, ht.2⟩) fun _ _ hb _ => ⟨trivial, hb⟩)

/-- Parallel actions for each element of a list are parallel, by induction on it. -/
theorem forM {γ : Type} {each : γ → Action σ PUnit} :
    ∀ {l : List γ}, (∀ c ∈ l, Parallel R (fun _ => True) (each c)) →
      Parallel R (fun _ => True) (l.forM each)
  | [], _ => .pure trivial
  | c :: _, h => (h c List.mem_cons_self).bind fun _ _ =>
      forM fun c hc => h c (List.mem_cons_of_mem _ hc)

end Parallel

end Bourse.Action
