import FeatureFile.Proofs.Alike.Trees

namespace FeatureFile.Tree

/-- Trees of one shape: nodes of the same rules with the same flags, whose ends are related by `M`,
and tokens related by `R`. -/
inductive Mirrors (R : Token → Token → Prop) (M : Mark → Mark → Prop) : Tree → Tree → Prop
  | leaf {t u : Token} : R t u → Mirrors R M (leaf t) (leaf u)
  | node {rule : Rule} {anchor anchor' : Mark} {recovered : Bool} {cs ds : List Tree} :
      M (node rule anchor recovered cs).start (node rule anchor' recovered ds).start →
      M (node rule anchor recovered cs).stop (node rule anchor' recovered ds).stop →
      (node rule anchor recovered cs).hasError = (node rule anchor' recovered ds).hasError →
      List.Forall₂ (Mirrors R M) cs ds →
      Mirrors R M (node rule anchor recovered cs) (node rule anchor' recovered ds)

variable {L : Likeness} {R : Token → Token → Prop} {M : Mark → Mark → Prop} {t u : Tree}
  {ts us : List Tree}

lemma Alike.start (h : Alike L t u) : L.mark t.start u.start := by
  induction t using Tree.start.induct generalizing u with
  | case1 t =>
    obtain ⟨here⟩ | _ := h
    exact L.start here
  | case2 rule anchor recovered =>
    obtain _ | ⟨place, _ | _⟩ := h
    exact place
  | case3 rule anchor recovered first rest ih =>
    obtain _ | ⟨_, _ | ⟨here, _⟩⟩ := h
    simpa [Tree.start] using ih here

mutual

lemma alike_stop : {t u : Tree} → Alike L t u → L.mark t.stop u.stop
  | .leaf _, .leaf _, .leaf h => by simpa [stop] using L.stop h
  | .node .., .node .., .node place below => by simpa [stop] using alike_stopOf place below

lemma alike_stopOf : {ts us : List Tree} → {anchor anchor' : Mark} → L.mark anchor anchor' →
    List.Forall₂ (Alike L) ts us → L.mark (stopOf anchor ts) (stopOf anchor' us)
  | [], [], _, _, place, .nil => by simpa [stopOf] using place
  | _ :: _, _ :: _, _, _, _, .cons first rest => by
    simpa [stopOf] using alike_stopOf (alike_stop first) rest

end

mutual

lemma alike_hasError : {t u : Tree} → Alike L t u → t.hasError = u.hasError
  | .leaf _, .leaf _, .leaf _ => by simp
  | .node .., .node .., .node _ below => by simp [alike_anyError below]

lemma alike_anyError : {ts us : List Tree} → List.Forall₂ (Alike L) ts us →
    anyError ts = anyError us
  | [], [], .nil => rfl
  | _ :: _, _ :: _, .cons first rest => by simp [alike_hasError first, alike_anyError rest]

end

mutual

lemma alike_nodes : {t u : Tree} → Alike L t u → List.Forall₂ (Alike L) t.nodes u.nodes
  | .leaf _, .leaf _, .leaf _ => by simp
  | .node .., .node .., .node place below => by simpa using ⟨.node place below, alike_nodesOf below⟩

lemma alike_nodesOf : {ts us : List Tree} → List.Forall₂ (Alike L) ts us →
    List.Forall₂ (Alike L) (nodesOf ts) (nodesOf us)
  | [], [], .nil => by simp
  | _ :: _, _ :: _, .cons first rest => by
    simpa using List.rel_append (alike_nodes first) (alike_nodesOf rest)

end

mutual

lemma Alike.mirrors (tokens : ∀ a b, L.token a b → R a b) (marks : ∀ m n, L.mark m n → M m n) :
    {t u : Tree} → Alike L t u → Mirrors R M t u
  | .leaf _, .leaf _, .leaf h => .leaf (tokens _ _ h)
  | .node .., .node .., .node place below =>
    .node (marks _ _ (Alike.start (.node place below))) (marks _ _ (alike_stop (.node place below)))
      (alike_hasError (.node place below)) (forall₂_mirrors tokens marks below)

lemma forall₂_mirrors (tokens : ∀ a b, L.token a b → R a b) (marks : ∀ m n, L.mark m n → M m n) :
    {ts us : List Tree} → List.Forall₂ (Alike L) ts us → List.Forall₂ (Mirrors R M) ts us
  | [], [], .nil => .nil
  | _ :: _, _ :: _, .cons first rest =>
    .cons (Alike.mirrors tokens marks first) (forall₂_mirrors tokens marks rest)

end

end FeatureFile.Tree
