import CheckHarness.Proofs.Cancellation
import CheckHarness.Proofs.Lists
import CheckHarness.Proofs.Workload.Moves

namespace CheckHarness.Workload

/-- The tokens of callers, jobs and links, for a job with its caller and for a link with its job. -/
structure Tree where
  callers : List CancellationToken
  jobs : List (Nat × CancellationToken)
  links : List (Nat × CancellationToken)

def Job.place (job : Job) : Nat × CancellationToken :=
  (job.caller, job.token)

def Link.place (link : Link) : Nat × CancellationToken :=
  (link.job, link.token)

def tree (workload : Workload) : Tree :=
  ⟨workload.callers, workload.jobs.map Job.place, workload.links.map Link.place⟩

/-- Whoever has a token. -/
inductive Owner where
  | caller (index : Nat)
  | job (index : Nat)
  | link (index : Nat)
  deriving DecidableEq, Repr

/-- Every child has a token below that of its parent, numbered by the child's place. -/
def Below (parents : List CancellationToken) (children : List (Nat × CancellationToken)) : Prop :=
  ∀ (index parent : Nat) (token : CancellationToken), children[index]? = some (parent, token) →
    ∃ above : CancellationToken, parents[parent]? = some above ∧ token = above.child index

section Below

variable {parents : List CancellationToken} {children : List (Nat × CancellationToken)}

theorem Below.concat_parent (hbelow : Below parents children) (token : CancellationToken) :
    Below (parents ++ [token]) children := by
  intro index parent child hchild
  obtain ⟨above, habove, rfl⟩ := hbelow index parent child hchild
  exact ⟨above, getElem?_concat_eq_some_iff.mpr (.inl habove), rfl⟩

theorem Below.concat_child (hbelow : Below parents children) {parent : Nat}
    {above : CancellationToken} (habove : parents[parent]? = some above) :
    Below parents (children ++ [(parent, above.child children.length)]) := by
  intro index other token hchild
  rcases getElem?_concat_eq_some_iff.mp hchild with hchild | ⟨rfl, hlast⟩
  · exact hbelow index other token hchild
  · obtain ⟨rfl, rfl⟩ := Prod.mk.inj hlast
    exact ⟨above, habove, rfl⟩

end Below

namespace Tree

def token? (tree : Tree) : Owner → Option CancellationToken
  | .caller index => tree.callers[index]?
  | .job index => tree.jobs[index]?.map Prod.snd
  | .link index => tree.links[index]?.map Prod.snd

/-- The callers' tokens are at the root, the jobs' below them, and the links' below these. -/
structure Planted (tree : Tree) : Prop where
  callers : ∀ (index : Nat) (token : CancellationToken),
    tree.callers[index]? = some token → token = .root index
  jobs : Below tree.callers tree.jobs
  links : Below (tree.jobs.map Prod.snd) tree.links

/-- A tree grows at most by a token for a caller, a job or a link. -/
inductive Grows (tree : Tree) : Tree → Prop where
  | same : Grows tree tree
  | caller : Grows tree { tree with callers := tree.callers ++ [.root tree.callers.length] }
  | job {caller : Nat} {token : CancellationToken} (hcaller : tree.callers[caller]? = some token) :
    Grows tree { tree with jobs := tree.jobs ++ [(caller, token.child tree.jobs.length)] }
  | link {job caller : Nat} {token : CancellationToken}
    (hjob : tree.jobs[job]? = some (caller, token)) :
    Grows tree { tree with links := tree.links ++ [(job, token.child tree.links.length)] }

section Planted

variable {tree next : Tree}

/-- A tree that grows stays planted. -/
theorem Planted.grows (hplanted : Planted tree) (hgrows : Grows tree next) : Planted next := by
  cases hgrows with
  | same => exact hplanted
  | caller =>
    refine ⟨fun index token hcaller => ?_, hplanted.jobs.concat_parent _, hplanted.links⟩
    rcases getElem?_concat_eq_some_iff.mp hcaller with hcaller | ⟨rfl, rfl⟩
    · exact hplanted.callers index token hcaller
    · rfl
  | job hcaller =>
    refine ⟨hplanted.callers, hplanted.jobs.concat_child hcaller, ?_⟩
    rw [List.map_append]
    exact hplanted.links.concat_parent _
  | link hjob =>
    refine ⟨hplanted.callers, hplanted.jobs, hplanted.links.concat_child ?_⟩
    rw [List.getElem?_map, hjob]
    rfl

end Planted

section Contains

variable {tree : Tree} {owner other : Owner} {token above : CancellationToken} {index : Nat}

end Contains

end Tree

end CheckHarness.Workload
