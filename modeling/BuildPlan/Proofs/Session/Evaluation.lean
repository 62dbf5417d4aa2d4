import BuildPlan.Session.Run
import Mathlib.Data.List.Forall2

/-! # Evaluating programs

A universe answers at once, so that time plays no part in a run over it: how a program ends depends
on the universe alone.
-/
namespace BuildPlan

section Results

variable {ε α β : Type}

@[simp] theorem pure_eq_ok (a : α) : (pure a : Except ε α) = .ok a := rfl

@[simp] theorem throw_eq_error (e : ε) : (throw e : Except ε α) = .error e := rfl

@[simp] theorem ok_bind (a : α) (f : α → Except ε β) : Except.ok a >>= f = f a := rfl

@[simp] theorem error_bind (e : ε) (f : α → Except ε β) : Except.error e >>= f = .error e := rfl

@[simp] theorem mapError_ok {ε' : Type} (f : ε → ε') (a : α) :
    (Except.ok a).mapError f = .ok a := rfl

@[simp] theorem mapError_error {ε' : Type} (f : ε → ε') (e : ε) :
    (Except.error e : Except ε α).mapError f = .error (f e) := rfl

theorem bind_eq_ok_iff {a : Except ε α} {f : α → Except ε β} {b : β} :
    a >>= f = .ok b ↔ ∃ x, a = .ok x ∧ f x = .ok b := by
  cases a <;> simp

theorem bind_eq_error_iff {a : Except ε α} {f : α → Except ε β} {e : ε} :
    a >>= f = .error e ↔ a = .error e ∨ ∃ x, a = .ok x ∧ f x = .error e := by
  cases a <;> simp

theorem eq_of_map_eq_ok {x : Except ε α} {a : α} {f : α → β} {b : β} (h : x = .ok a)
    (hf : x.map f = .ok b) : f a = b := by
  rw [h] at hf
  exact Except.ok.inj hf

theorem mapM_eq_ok_iff {f : α → Except ε β} {l : List α} {l' : List β} :
    l.mapM f = .ok l' ↔ List.Forall₂ (fun a b => f a = .ok b) l l' := by
  induction l generalizing l' with
  | nil => simp [pure, Except.pure, eq_comm]
  | cons a l ih =>
    rw [List.mapM_cons, bind_eq_ok_iff, List.forall₂_cons_left_iff]
    constructor
    · rintro ⟨b, hb, h⟩
      obtain ⟨bs, hbs, h⟩ := bind_eq_ok_iff.1 h
      exact ⟨b, bs, hb, ih.1 hbs, (Except.ok.inj h).symm⟩
    · rintro ⟨b, bs, hb, hbs, rfl⟩
      exact ⟨b, hb, bind_eq_ok_iff.2 ⟨bs, ih.2 hbs, rfl⟩⟩

theorem exists_mapM_eq_ok_iff {f : α → Except ε β} {l : List α} :
    (∃ l', l.mapM f = .ok l') ↔ ∀ a ∈ l, ∃ b, f a = .ok b := by
  simp only [mapM_eq_ok_iff]
  induction l with
  | nil => simp
  | cons a l ih => simp [List.forall₂_cons_left_iff, ← ih]

theorem exists_of_mem_forall₂ {r : α → β → Prop} {l : List α} {l' : List β}
    (h : List.Forall₂ r l l') {b : β} (hb : b ∈ l') : ∃ a ∈ l, r a b := by
  induction h with
  | nil => cases hb
  | cons hab _ ih =>
    rcases List.mem_cons.1 hb with rfl | hb
    · exact ⟨_, List.mem_cons_self, hab⟩
    · obtain ⟨a, ha, hab⟩ := ih hb
      exact ⟨a, List.mem_cons_of_mem _ ha, hab⟩

theorem exists_of_mem_mapM {f : α → Except ε β} {l : List α} {l' : List β}
    (h : l.mapM f = .ok l') {b : β} (hb : b ∈ l') : ∃ a ∈ l, f a = .ok b :=
  exists_of_mem_forall₂ (mapM_eq_ok_iff.1 h) hb

theorem mem_mapM_iff {f : α → Except ε β} {l : List α} {l' : List β} (h : l.mapM f = .ok l')
    {b : β} : b ∈ l' ↔ ∃ a ∈ l, f a = .ok b := by
  constructor
  · exact exists_of_mem_mapM h
  · intro ⟨a, ha, hab⟩
    obtain ⟨b', hb', hab'⟩ := exists_of_mem_forall₂ (mapM_eq_ok_iff.1 h).flip ha
    rwa [← Except.ok.inj (hab'.symm.trans hab)]

theorem exists_of_mapM_eq_error {f : α → Except ε β} {l : List α} {e : ε}
    (h : l.mapM f = .error e) : ∃ a ∈ l, f a = .error e := by
  induction l with
  | nil => cases h
  | cons a l ih =>
    rw [List.mapM_cons, bind_eq_error_iff] at h
    rcases h with ha | ⟨b, -, h⟩
    · exact ⟨a, List.mem_cons_self, ha⟩
    · rw [bind_eq_error_iff] at h
      rcases h with hl | ⟨_, -, h⟩
      · obtain ⟨a', ha', hfa'⟩ := ih hl
        exact ⟨a', List.mem_cons_of_mem a ha', hfa'⟩
      · cases h

theorem eq_map_of_mapM {f : α → Except ε β} {g : α → β} (hfg : ∀ a b, f a = .ok b → b = g a)
    {l : List α} {l' : List β} (h : l.mapM f = .ok l') : l' = l.map g := by
  rw [mapM_eq_ok_iff] at h
  induction h with
  | nil => rfl
  | cons hab _ ih => rw [List.map_cons, hfg _ _ hab, ih]

theorem mapM_filter {f g : α → Except ε β} {p : α → Bool} {q : β → Bool}
    (hpq : ∀ a b, f a = .ok b → p a = q b) (hfg : ∀ a, p a = true → f a = g a) {l : List α}
    {l' : List β} (h : l.mapM f = .ok l') : (l.filter p).mapM g = .ok (l'.filter q) := by
  rw [mapM_eq_ok_iff] at h ⊢
  induction h with
  | nil => exact .nil
  | @cons a b l l' hab _ ih =>
    have hq := hpq a b hab
    cases hp : p a with
    | true =>
      rw [List.filter_cons_of_pos hp, List.filter_cons_of_pos (hq ▸ hp)]
      exact .cons (hfg a hp ▸ hab) ih
    | false =>
      rwa [List.filter_cons_of_neg (by simp [hp]), List.filter_cons_of_neg (by simp [← hq, hp])]

end Results

/-- What a call comes to in a program. -/
def Universe.reply (u : Universe) (c : Call) : Except ResolveError c.Answer :=
  (u.answer c).mapError c.failure

namespace Program

variable {α β : Type} (u : Universe)

/-- How a program ends over a universe. -/
def eval : Program α → Except ResolveError α
  | done a => .ok a
  | fail e => .error e
  | ask c next => u.reply c >>= fun answer => (next answer).eval
  | lookups _ names branch next =>
    (names.mapM fun n => u.reply (.aclOf n branch)) >>= fun acls => (next acls).eval

theorem eval_ask (c : Call) (next : c.Answer → Program α) :
    (ask c next).eval u = u.reply c >>= fun answer => (next answer).eval u := rfl

theorem eval_lookups (width : Nat) (names : List PackageName) (branch : String)
    (next : List (List String) → Program α) : (lookups width names branch next).eval u =
      (names.mapM fun n => u.reply (.aclOf n branch)) >>= fun acls => (next acls).eval u := rfl

@[simp] theorem eval_pure (a : α) : (pure a : Program α).eval u = .ok a := rfl

@[simp] theorem eval_bind (p : Program α) (f : α → Program β) :
    (p >>= f).eval u = p.eval u >>= fun a => (f a).eval u := by
  change (p.bind f).eval u = _
  induction p with
  | done a => rfl
  | fail e => rfl
  | ask c next ih =>
    rw [eval_ask, bind_assoc]
    exact bind_congr ih
  | lookups width names branch next ih =>
    rw [eval_lookups, bind_assoc]
    exact bind_congr ih

@[simp] theorem eval_call (c : Call) : (call c).eval u = u.reply c := bind_pure _

/-! ### Runs, call by call -/

variable (world : World) (allowance : Allowance) (p : Progress)

theorem run_ask (c : Call) (next : c.Answer → Program α) :
    (ask c next).run world allowance p =
      let ending := allowance.ending p.now c (world p.past c)
      match ending.outcome with
      | .ok answer => (next answer).run world allowance ⟨c :: p.past, ending.time⟩
      | .error stop => (.error stop, ⟨c :: p.past, ending.time⟩) := by
  cases hending : (allowance.ending p.now c (world p.past c)).outcome <;> simp only [run, hending]

theorem run_lookups (width : Nat) (names : List PackageName) (branch : String)
    (next : List (List String) → Program α) :
    (lookups width names branch next).run world allowance p =
      match runLookups world allowance width branch names.length ⟨[], names⟩ p with
      | (.ok answers, p) => (next answers).run world allowance p
      | (.error stop, p) => (.error stop, p) := by
  rcases hrun : runLookups world allowance width branch names.length ⟨[], names⟩ p with
    ⟨_ | _, _⟩ <;> simp only [run, hrun]

end Program

end BuildPlan
