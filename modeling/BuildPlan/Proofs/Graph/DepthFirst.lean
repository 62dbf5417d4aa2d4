import BuildPlan.Proofs.Graph.Component

/-! # Depth-first search

A search that goes deep before it goes wide, with a stack of nodes to look at. It never visits a
node twice, so it ends, and it has then visited what the first node reaches. In which order the
requirements of a node are put on the stack does not matter.
-/
namespace BuildPlan

structure Search where
  stack : List PackageName
  /-- The nodes visited, the last one first. -/
  visited : List PackageName
deriving DecidableEq

namespace Search

variable (successors : PackageName → List PackageName)

def start (n : PackageName) : Search := ⟨[n], []⟩

/-- Looks at one node. Unless it was visited before it is visited now, and those of its successors
that were not are put on the stack. -/
def step (s : Search) : Search :=
  match s.stack with
  | [] => s
  | n :: rest =>
    if n ∈ s.visited then { s with stack := rest }
    else ⟨(successors n).filter (· ∉ n :: s.visited) ++ rest, n :: s.visited⟩

def advance (s : Search) : Nat → Search
  | 0 => s
  | steps + 1 => step successors (advance s steps)

def found (s : Search) : List PackageName := s.stack ++ s.visited

/-- What a search maintains: it knows only of nodes that the first one reaches, and of all that the
visited nodes require. -/
structure Explores (g : Graph) (a : PackageName) (s : Search) : Prop where
  nodup : s.visited.Nodup
  reaches : ∀ m ∈ s.found, g.Reaches a m
  mem_found : a ∈ s.found
  closed : ∀ n ∈ s.visited, ∀ m, g.Requires n m → m ∈ s.found

variable {successors} {g : Graph} {a n : PackageName} {s : Search} {rest visited : List PackageName}

theorem step_of_mem (hn : n ∈ visited) :
    step successors ⟨n :: rest, visited⟩ = ⟨rest, visited⟩ := by
  simp [step, hn]

theorem step_of_notMem (hn : n ∉ visited) : step successors ⟨n :: rest, visited⟩ =
    ⟨(successors n).filter (· ∉ n :: visited) ++ rest, n :: visited⟩ := by
  simp [step, hn]

theorem explores_start : (start a).Explores g a where
  nodup := List.nodup_nil
  reaches m hm := by
    obtain rfl : m = a := by simpa [start, found] using hm
    exact .refl
  mem_found := by simp [start, found]
  closed n hn := by simp [start] at hn

theorem mem_found_step {m : PackageName} (hm : m ∈ s.found) : m ∈ (s.step successors).found := by
  obtain ⟨stack, visited⟩ := s
  cases stack with
  | nil => exact hm
  | cons n rest =>
    by_cases hn : n ∈ visited
    · simp only [step_of_mem hn, found, List.cons_append, List.mem_cons, List.mem_append] at hm ⊢
      rcases hm with rfl | hm
      · exact Or.inr hn
      · exact hm
    · simp only [step_of_notMem hn, found, List.cons_append, List.mem_cons, List.mem_append]
        at hm ⊢
      tauto

theorem Explores.reaches_step (hsuccessors : ∀ n m, m ∈ successors n ↔ g.Requires n m)
    (h : s.Explores g a) : ∀ m ∈ (s.step successors).found, g.Reaches a m := by
  intro m hm
  obtain ⟨stack, visited⟩ := s
  cases stack with
  | nil => exact h.reaches m hm
  | cons n rest =>
    by_cases hn : n ∈ visited
    · rw [step_of_mem hn] at hm
      exact h.reaches m (List.mem_cons_of_mem _ hm)
    · have hreaches : g.Reaches a n := h.reaches n (by simp [found])
      simp only [step_of_notMem hn, found, List.mem_append, List.mem_filter, List.mem_cons] at hm
      rcases hm with (⟨hsucc, -⟩ | hrest) | rfl | hvisited
      · exact hreaches.tail ((hsuccessors n m).1 hsucc)
      · exact h.reaches m (by simp [found, hrest])
      · exact hreaches
      · exact h.reaches m (by simp [found, hvisited])

theorem Explores.closed_step (hsuccessors : ∀ n m, m ∈ successors n ↔ g.Requires n m)
    (h : s.Explores g a) :
    ∀ n ∈ (s.step successors).visited, ∀ m, g.Requires n m → m ∈ (s.step successors).found := by
  intro k hk m hkm
  have hkept : k ∈ s.visited → m ∈ (s.step successors).found :=
    fun hk => mem_found_step (h.closed k hk m hkm)
  obtain ⟨stack, visited⟩ := s
  cases stack with
  | nil => exact hkept hk
  | cons n rest =>
    by_cases hn : n ∈ visited
    · rw [step_of_mem hn] at hk
      exact hkept hk
    · rw [step_of_notMem hn] at hk
      rcases List.mem_cons.1 hk with rfl | hk
      · have hsucc := (hsuccessors k m).2 hkm
        simp only [step_of_notMem hn, found, List.mem_append, List.mem_filter, decide_eq_true_eq]
        tauto
      · exact hkept hk

theorem Explores.nodup_step (h : s.Explores g a) : (s.step successors).visited.Nodup := by
  obtain ⟨stack, visited⟩ := s
  cases stack with
  | nil => exact h.nodup
  | cons n rest =>
    by_cases hn : n ∈ visited
    · rw [step_of_mem hn]
      exact h.nodup
    · rw [step_of_notMem hn]
      exact List.nodup_cons.2 ⟨hn, h.nodup⟩

theorem Explores.step (hsuccessors : ∀ n m, m ∈ successors n ↔ g.Requires n m)
    (h : s.Explores g a) : (s.step successors).Explores g a where
  nodup := h.nodup_step
  reaches := h.reaches_step hsuccessors
  mem_found := mem_found_step h.mem_found
  closed := h.closed_step hsuccessors

theorem Explores.advance (hsuccessors : ∀ n m, m ∈ successors n ↔ g.Requires n m)
    (h : s.Explores g a) (steps : Nat) : (s.advance successors steps).Explores g a := by
  induction steps with
  | zero => exact h
  | succ steps ih =>
    rw [Search.advance]
    exact ih.step hsuccessors

theorem Explores.mem_visited_iff (h : s.Explores g a) (hstack : s.stack = []) {m : PackageName} :
    m ∈ s.visited ↔ g.Reaches a m := by
  have hfound : s.found = s.visited := by simp [found, hstack]
  constructor
  · intro hm
    exact h.reaches m (hfound ▸ hm)
  · intro hreaches
    induction hreaches with
    | refl => exact hfound ▸ h.mem_found
    | tail _ hrequires ih => exact hfound ▸ h.closed _ ih _ hrequires

/-! ### Termination -/

variable (successors g) in
/-- How often a search looks at a node from here on, at most: once for each on the stack, and once
for each successor of a node that was not visited. -/
def remaining (s : Search) : Nat :=
  s.stack.length + ((g.nodes.filter (· ∉ s.visited)).flatMap successors).length

theorem remaining_step_lt (hstack : s.stack ≠ []) (hnodes : ∀ n ∈ s.stack, n ∈ g.nodes) :
    (s.step successors).remaining successors g < s.remaining successors g := by
  obtain ⟨stack, visited⟩ := s
  cases stack with
  | nil => exact absurd rfl hstack
  | cons n rest =>
    by_cases hn : n ∈ visited
    · simp [step_of_mem hn, remaining]
    · -- a visit pays for the successors that it puts on the stack
      have herase : g.nodes.filter (· ∉ n :: visited) = (g.nodes.filter (· ∉ visited)).erase n := by
        rw [(g.nodup_nodes.filter _).erase_eq_filter, List.filter_filter]
        simp [bne, beq_eq_decide]
      have hmem : n ∈ g.nodes.filter (· ∉ visited) := by
        simp [hnodes n List.mem_cons_self, hn]
      have hpaid := ((List.perm_cons_erase hmem).flatMap_right successors).length_eq
      rw [List.flatMap_cons, List.length_append] at hpaid
      have hpushed : ((successors n).filter (· ∉ n :: visited)).length ≤ (successors n).length :=
        List.length_filter_le ..
      simp only [step_of_notMem hn, remaining, herase, List.length_append, List.length_cons]
      omega

theorem Explores.remaining_advance_le (hsuccessors : ∀ n m, m ∈ successors n ↔ g.Requires n m)
    (ha : a ∈ g.nodes) (h : s.Explores g a) {steps : Nat}
    (hstack : (s.advance successors steps).stack ≠ []) :
    (s.advance successors steps).remaining successors g + steps ≤ s.remaining successors g := by
  induction steps with
  | zero => exact Nat.le_refl _
  | succ steps ih =>
    rw [Search.advance] at hstack ⊢
    have hbefore : (s.advance successors steps).stack ≠ [] := by
      intro hempty
      exact hstack (by simp [Search.step, hempty])
    have hnodes : ∀ n ∈ (s.advance successors steps).stack, n ∈ g.nodes := by
      intro n hn
      have hreaches := (h.advance hsuccessors steps).reaches n (List.mem_append_left _ hn)
      exact hreaches.mem_nodes ha
    have hlt : ((s.advance successors steps).step successors).remaining successors g <
        (s.advance successors steps).remaining successors g := remaining_step_lt hbefore hnodes
    have hle := ih hbefore
    omega

/-- A whole search: it looks at the first node, and then once for each arrow at most. -/
def finish (g : Graph) (successors : PackageName → List PackageName) (n : PackageName) : Search :=
  (start n).advance successors (1 + (g.nodes.flatMap successors).length)

theorem stack_finish (hsuccessors : ∀ n m, m ∈ successors n ↔ g.Requires n m)
    (ha : a ∈ g.nodes) : (finish g successors a).stack = [] := by
  have hstart : (start a).remaining successors g = 1 + (g.nodes.flatMap successors).length := by
    simp [remaining, start]
  by_contra hstack
  have hle := explores_start.remaining_advance_le hsuccessors ha hstack
  have hpos := List.length_pos_of_ne_nil hstack
  simp only [finish, remaining] at hle hpos hstart
  omega

/-- A depth-first search visits what the first node reaches, and each node of it once. -/
theorem finish_spec (hsuccessors : ∀ n m, m ∈ successors n ↔ g.Requires n m) (ha : a ∈ g.nodes) :
    (finish g successors a).stack = [] ∧ (finish g successors a).visited.Nodup ∧
      ∀ m, m ∈ (finish g successors a).visited ↔ g.Reaches a m := by
  have hstack := stack_finish hsuccessors ha
  have hexplores : (finish g successors a).Explores g a := explores_start.advance hsuccessors _
  exact ⟨hstack, hexplores.nodup, fun m => hexplores.mem_visited_iff hstack⟩

end Search

end BuildPlan
