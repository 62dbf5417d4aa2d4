import BuildPlan.Multimap
import BuildPlan.Name

/-! # Dependency graphs

The nodes are package names and an arrow leads from a package to one that it requires. Arrows stay
between nodes, and no package requires itself.
-/
namespace BuildPlan

/-- Grows a set by what is found next to its newest members, for some number of rounds or until
nothing new is found. -/
def spread (next : PackageSet → PackageSet) : Nat → PackageSet → PackageSet → PackageSet
  | 0, _, seen => seen
  | rounds + 1, frontier, seen =>
    let fresh := next frontier \ seen
    if fresh.isEmpty then seen else spread next rounds fresh (seen ∪ fresh)

structure Graph where
  arrows : Std.ExtTreeMap PackageName PackageSet
  arrows_closed : ∀ a s, arrows[a]? = some s → ∀ b ∈ s, b ∈ arrows ∧ b ≠ a

namespace Graph

def ofNodes (nodes : PackageSet) : Graph where
  arrows := nodes.toList.foldl (fun m n => m.insert n ∅) ∅
  arrows_closed := by
    have key : ∀ (l : List PackageName) (m : Std.ExtTreeMap PackageName PackageSet),
        (∀ (a : PackageName) (s : PackageSet), m[a]? = some s → s = ∅) →
        ∀ (a : PackageName) (s : PackageSet),
          (l.foldl (fun m n => m.insert n ∅) m)[a]? = some s → s = ∅ := by
      intro l
      induction l with
      | nil => exact fun m h => h
      | cons n l ih =>
        intro m h
        refine ih _ fun a s hs => ?_
        rw [Std.ExtTreeMap.getElem?_insert] at hs
        split at hs
        · exact (Option.some.inj hs).symm
        · exact h a s hs
    intro a s hs b hb
    rw [key _ _ (by simp) a s hs] at hb
    simp at hb

variable (g : Graph)

def nodes : List PackageName := g.arrows.keys

def size : Nat := g.arrows.size

def contains (n : PackageName) : Bool := g.arrows.contains n

def requiredSet (n : PackageName) : PackageSet := SetMap.values g.arrows n

def requires (n : PackageName) : List PackageName := (g.requiredSet n).toList

def requiredBy (n : PackageName) : List PackageName :=
  g.nodes.filter fun m => (g.requiredSet m).contains n

/-- Whether an arrow can be added: it joins two different nodes and is not there yet. -/
def accepts (consumer requirement : PackageName) : Bool :=
  consumer != requirement && g.contains consumer && g.contains requirement &&
    !(g.requiredSet consumer).contains requirement

/-- Records that a package requires another; what the graph does not accept changes nothing. -/
def addRequirement (consumer requirement : PackageName) : Graph :=
  if h : g.accepts consumer requirement then
    { arrows := g.arrows.insert consumer ((g.requiredSet consumer).insert requirement)
      arrows_closed := by
        simp only [accepts, contains, Bool.and_eq_true, bne_iff_ne, ne_eq] at h
        intro a s hs b hb
        rw [Std.ExtTreeMap.getElem?_insert] at hs
        split at hs
        · next e =>
          obtain rfl := Std.LawfulEqCmp.eq_of_compare e
          obtain rfl := Option.some.inj hs
          rw [Std.ExtTreeSet.mem_insert] at hb
          rcases hb with hb | hb
          · obtain rfl := Std.LawfulEqCmp.eq_of_compare hb
            refine ⟨?_, fun e => h.1.1.1 e.symm⟩
            rw [Std.ExtTreeMap.mem_insert]
            exact Or.inr h.1.2
          · cases hr : g.arrows[consumer]? with
            | none => simp [requiredSet, SetMap.values, hr] at hb
            | some t =>
              have hb' : b ∈ t := by simpa [requiredSet, SetMap.values, hr] using hb
              have := g.arrows_closed _ _ hr _ hb'
              exact ⟨Std.ExtTreeMap.mem_insert.2 (Or.inr this.1), this.2⟩
        · have := g.arrows_closed _ _ hs _ hb
          exact ⟨Std.ExtTreeMap.mem_insert.2 (Or.inr this.1), this.2⟩ }
  else g

def requiredByAny (s : PackageSet) : PackageSet :=
  s.foldl (fun found n => found ∪ g.requiredSet n) ∅

/-- A node with everything that it requires, however indirectly. -/
def downward (start : PackageName) : PackageSet :=
  if g.contains start then spread g.requiredByAny g.size (.ofList [start]) (.ofList [start]) else ∅

end Graph

end BuildPlan
