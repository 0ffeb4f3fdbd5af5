import MethodSynthesis.Fault

/-!
# Answers that may be missing

A question over the tables of a program has an answer or ends in a fault. This module collects what
the proofs need to know about such questions when they are asked one after the other: when a
sequence has an answer (`bind_eq_ok`), and when an answer that one state gives is given by another
state as well (`Persists`). A question persists when the questions that it asks do.
-/

set_option autoImplicit false

namespace MethodSynthesis

variable {ε α β : Type}

/-! ## Sequences of questions -/

@[simp] theorem ok_bind (a : α) (f : α → Except ε β) : (Except.ok a >>= f) = f a := rfl

@[simp] theorem error_bind (e : ε) (f : α → Except ε β) : (Except.error e >>= f) = .error e := rfl

@[simp] theorem pure_eq_ok (a : α) : (pure a : Except ε α) = .ok a := rfl

theorem bind_eq_ok {x : Except ε α} {f : α → Except ε β} {r : β} :
    (x >>= f) = .ok r ↔ ∃ a, x = .ok a ∧ f a = .ok r := by
  cases x with
  | ok a => simp
  | error e => simp

/-- What is made of an answer is an answer. -/
theorem exists_bind_ok_iff {x : Except ε α} {f : α → β} :
    (∃ b, (x >>= fun a => .ok (f a)) = .ok b) ↔ ∃ a, x = .ok a := by
  cases x with
  | ok a => simp
  | error e => simp

theorem eq_ok_of_toOption {x : Except ε α} {a : α} (h : x.toOption = some a) : x = .ok a := by
  cases x with
  | ok b => exact congrArg Except.ok (Option.some.inj h)
  | error e => exact nomatch h

/-- A question has an answer that meets a condition. -/
def Answers (x : Except ε α) (P : α → Prop) : Prop := ∃ a, x = .ok a ∧ P a

namespace Answers

variable {x : Except ε α} {P : α → Prop}

theorem ok {a : α} (h : P a) : Answers (.ok a : Except ε α) P := ⟨a, rfl, h⟩

theorem bind {f : α → Except ε β} {R : β → Prop} (h : Answers x P)
    (rest : ∀ a, P a → Answers (f a) R) : Answers (x >>= f) R := by
  obtain ⟨a, rfl, ha⟩ := h
  exact rest a ha

end Answers

/-- Questions about the members of a list that all have an answer can be asked in order. -/
theorem mapM_eq_ok {f : α → Except ε β} {g : α → β} {l : List α} (h : ∀ a ∈ l, f a = .ok (g a)) :
    l.mapM f = .ok (l.map g) := by
  induction l with
  | nil => rfl
  | cons a l ih =>
    rw [List.mapM_cons, h a List.mem_cons_self, ih fun b hb => h b (List.mem_cons_of_mem a hb)]
    rfl

/-- Questions about the members of a list have answers in order when each has one. -/
theorem exists_mapM_eq_ok {f : α → Except ε β} {l : List α} (h : ∀ a ∈ l, ∃ b, f a = .ok b) :
    ∃ bs, l.mapM f = .ok bs := by
  induction l with
  | nil => exact ⟨[], rfl⟩
  | cons a l ih =>
    obtain ⟨b, hb⟩ := h a List.mem_cons_self
    obtain ⟨bs, hbs⟩ := ih fun c hc => h c (List.mem_cons_of_mem a hc)
    refine ⟨b :: bs, ?_⟩
    rw [List.mapM_cons, hb, hbs]
    rfl

theorem mapM_congr {f g : α → Except ε β} {l : List α} (h : ∀ a ∈ l, f a = g a) :
    l.mapM f = l.mapM g := by
  induction l with
  | nil => rfl
  | cons a l ih =>
    rw [List.mapM_cons, List.mapM_cons, h a List.mem_cons_self,
      ih fun b hb => h b (List.mem_cons_of_mem a hb)]

theorem foldlM_eq_ok {f : β → α → Except ε β} {g : β → α → β} {l : List α}
    (h : ∀ b, ∀ a ∈ l, f b a = .ok (g b a)) (b : β) : l.foldlM f b = .ok (l.foldl g b) := by
  induction l generalizing b with
  | nil => rfl
  | cons a l ih =>
    rw [List.foldlM_cons, h b a List.mem_cons_self, ok_bind]
    exact ih (fun c d hd => h c d (List.mem_cons_of_mem a hd)) (g b a)

theorem foldlM_congr {f g : β → α → Except ε β} {l : List α} (h : ∀ b, ∀ a ∈ l, f b a = g b a)
    (b : β) : l.foldlM f b = l.foldlM g b := by
  induction l generalizing b with
  | nil => rfl
  | cons a l ih =>
    rw [List.foldlM_cons, List.foldlM_cons, h b a List.mem_cons_self]
    exact congrArg _ (funext fun c => ih (fun d e he => h d e (List.mem_cons_of_mem a he)) c)

/-- When each member of a list is asked whether a condition holds of it, the answer for the list is
whether it holds of all. -/
theorem allM_spec {f : α → Except ε Bool} {P : α → Prop} {l : List α}
    (h : ∀ a ∈ l, Answers (f a) (· = true ↔ P a)) :
    Answers (l.allM f) (· = true ↔ ∀ a ∈ l, P a) := by
  induction l with
  | nil => exact .ok (by simp)
  | cons a l ih =>
    rw [List.allM_cons, List.forall_mem_cons]
    refine (h a List.mem_cons_self).bind fun b holds => ?_
    rw [← holds]
    -- the first answer that is no ends the search, so the others are not asked
    cases b with
    | true =>
      rw [and_iff_right rfl]
      exact ih fun c hc => h c (List.mem_cons_of_mem a hc)
    | false => exact .ok (by simp)

/-- As `allM_spec`, for the question whether the condition holds of any member. -/
theorem anyM_spec {f : α → Except ε Bool} {P : α → Prop} {l : List α}
    (h : ∀ a ∈ l, Answers (f a) (· = true ↔ P a)) :
    Answers (l.anyM f) (· = true ↔ ∃ a ∈ l, P a) := by
  induction l with
  | nil => exact .ok (by simp)
  | cons a l ih =>
    simp only [List.anyM_cons, List.mem_cons, exists_eq_or_imp]
    refine (h a List.mem_cons_self).bind fun b holds => ?_
    rw [← holds]
    cases b with
    | true => exact .ok (by simp)
    | false =>
      rw [or_iff_right Bool.false_ne_true]
      exact ih fun c hc => h c (List.mem_cons_of_mem a hc)

/-- When a question about the members of a list has an answer, it is whether the condition is found. -/
theorem anyM_eq_ok {f : α → Except ε Bool} {l : List α} {b : Bool} (h : l.anyM f = .ok b) :
    b = true ↔ ∃ a ∈ l, f a = .ok true := by
  induction l with
  | nil =>
    obtain rfl := Except.ok.inj h
    simp
  | cons a l ih =>
    rw [List.anyM_cons] at h
    obtain ⟨first, hfirst, h⟩ := bind_eq_ok.1 h
    simp only [List.mem_cons, exists_eq_or_imp, hfirst]
    cases first with
    | true =>
      obtain rfl := Except.ok.inj h
      simp
    | false => simpa using ih h

/-- When the condition is not found, every member was asked. -/
theorem eq_ok_false_of_anyM {f : α → Except ε Bool} {l : List α} (h : l.anyM f = .ok false) :
    ∀ a ∈ l, f a = .ok false := by
  induction l with
  | nil => exact fun _ mem => nomatch mem
  | cons a l ih =>
    rw [List.anyM_cons] at h
    obtain ⟨first, hfirst, h⟩ := bind_eq_ok.1 h
    cases first with
    | true => exact nomatch Except.ok.inj h
    | false =>
      intro b mem
      rcases List.mem_cons.1 mem with rfl | mem
      · exact hfirst
      · exact ih h b mem

/-- Where a list is split is at its first member, or further on if that may come before. -/
theorem exists_split_cons_iff {P Q : α → Prop} {a : α} {l : List α} :
    (∃ before x after, a :: l = before ++ x :: after ∧ Q x ∧ ∀ y ∈ before, P y) ↔
      Q a ∨ P a ∧ ∃ before x after, l = before ++ x :: after ∧ Q x ∧ ∀ y ∈ before, P y := by
  constructor
  · rintro ⟨_ | ⟨first, before⟩, x, after, eq, last, all⟩
    · obtain ⟨rfl, -⟩ := List.cons.inj eq
      exact .inl last
    · obtain ⟨rfl, rfl⟩ := List.cons.inj eq
      obtain ⟨head, tail⟩ := List.forall_mem_cons.1 all
      exact .inr ⟨head, before, x, after, rfl, last, tail⟩
  · rintro (last | ⟨head, before, x, after, rfl, last, tail⟩)
    · exact ⟨[], a, l, rfl, last, fun _ mem => nomatch mem⟩
    · exact ⟨a :: before, x, after, rfl, last, List.forall_mem_cons.2 ⟨head, tail⟩⟩

/-- A search has an answer unless it comes to a member whose question has none, and what it was looking
for is not found among those before. -/
theorem exists_anyM_iff {f : α → Except ε Bool} (l : List α) : (∃ b, l.anyM f = .ok b) ↔
    ¬ ∃ before a after, l = before ++ a :: after ∧ (∀ b, f a ≠ .ok b) ∧
      ∀ x ∈ before, f x ≠ .ok true := by
  induction l with
  | nil =>
    refine iff_of_true ⟨false, rfl⟩ ?_
    rintro ⟨before, a, after, eq, -⟩
    exact List.append_ne_nil_of_right_ne_nil before (List.cons_ne_nil a after) eq.symm
  | cons a l ih =>
    rw [List.anyM_cons, exists_split_cons_iff]
    cases first : f a with
    | error e => exact iff_of_false (fun ⟨_, h⟩ => nomatch h) fun h => h (.inl fun _ => (nomatch ·))
    | ok found =>
      rw [ok_bind, not_or, and_iff_right fun h => h found rfl]
      cases found with
      | true => exact iff_of_true ⟨true, rfl⟩ fun h => h.1 rfl
      | false =>
        rw [not_and, forall_prop_of_true (fun h => Bool.false_ne_true (Except.ok.inj h))]
        exact ih

theorem allM_congr {f g : α → Except ε Bool} {l : List α} (h : ∀ a ∈ l, f a = g a) :
    l.allM f = l.allM g := by
  induction l with
  | nil => rfl
  | cons a l ih =>
    rw [List.allM_cons, List.allM_cons, h a List.mem_cons_self,
      ih fun b hb => h b (List.mem_cons_of_mem a hb)]

theorem anyM_congr {f g : α → Except ε Bool} {l : List α} (h : ∀ a ∈ l, f a = g a) :
    l.anyM f = l.anyM g := by
  induction l with
  | nil => rfl
  | cons a l ih =>
    rw [List.anyM_cons, List.anyM_cons, h a List.mem_cons_self,
      ih fun b hb => h b (List.mem_cons_of_mem a hb)]

/-! ## Answers that stay -/

/-- Every answer that the first question has is the answer to the second. -/
def Persists (x y : Except ε α) : Prop := ∀ a, x = .ok a → y = .ok a

namespace Persists

theorem refl (x : Except ε α) : Persists x x := fun _ h => h

theorem of_error (e : ε) (y : Except ε α) : Persists (.error e) y := fun _ h => nomatch h

/-- A question that has an answer is answered the same way by what it persists in. -/
theorem eq {x y : Except ε α} (h : Persists x y) (answer : ∃ a, x = .ok a) : x = y := by
  obtain ⟨a, ha⟩ := answer
  rw [ha, h a ha]

theorem bind {x y : Except ε α} {f g : α → Except ε β} (h : Persists x y)
    (hfg : ∀ a, x = .ok a → Persists (f a) (g a)) : Persists (x >>= f) (y >>= g) := by
  intro b hb
  obtain ⟨a, ha, hfa⟩ := bind_eq_ok.1 hb
  rw [h a ha]
  exact hfg a ha b hfa

/-- What is computed from an answer persists with it. -/
theorem map {x y : Except ε α} (f : α → β) (h : Persists x y) :
    Persists (x >>= fun a => pure (f a)) (y >>= fun a => pure (f a)) :=
  h.bind fun _ _ => refl _

theorem mapM {f g : α → Except ε β} {l : List α} (h : ∀ a ∈ l, Persists (f a) (g a)) :
    Persists (l.mapM f) (l.mapM g) := by
  induction l with
  | nil => exact refl _
  | cons a l ih =>
    rw [List.mapM_cons, List.mapM_cons]
    refine (h a List.mem_cons_self).bind fun b _ => ?_
    exact (ih fun c hc => h c (List.mem_cons_of_mem a hc)).map _

theorem foldlM {f g : β → α → Except ε β} {l : List α}
    (h : ∀ b, ∀ a ∈ l, Persists (f b a) (g b a)) (b : β) :
    Persists (l.foldlM f b) (l.foldlM g b) := by
  induction l generalizing b with
  | nil => exact refl _
  | cons a l ih =>
    rw [List.foldlM_cons, List.foldlM_cons]
    refine (h b a List.mem_cons_self).bind fun c _ => ?_
    exact ih (fun d e he => h d e (List.mem_cons_of_mem a he)) c

theorem allM {f g : α → Except ε Bool} {l : List α} (h : ∀ a ∈ l, Persists (f a) (g a)) :
    Persists (l.allM f) (l.allM g) := by
  induction l with
  | nil => exact refl _
  | cons a l ih =>
    rw [List.allM_cons, List.allM_cons]
    refine (h a List.mem_cons_self).bind fun b _ => ?_
    cases b with
    | true => exact ih fun c hc => h c (List.mem_cons_of_mem a hc)
    | false => exact refl _

theorem anyM {f g : α → Except ε Bool} {l : List α} (h : ∀ a ∈ l, Persists (f a) (g a)) :
    Persists (l.anyM f) (l.anyM g) := by
  induction l with
  | nil => exact refl _
  | cons a l ih =>
    rw [List.anyM_cons, List.anyM_cons]
    refine (h a List.mem_cons_self).bind fun b _ => ?_
    cases b with
    | true => exact refl _
    | false => exact ih fun c hc => h c (List.mem_cons_of_mem a hc)

end Persists

end MethodSynthesis
