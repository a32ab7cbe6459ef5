import FeatureFile.Parse
import FeatureFile.Proofs.Tree.Leaves

namespace FeatureFile

namespace Opening

lemma mem_of_mem_skipJunk {ls : List RawLine} : ∀ l ∈ (skipJunk ls).2, l ∈ ls := by
  intro l h
  fun_induction skipJunk ls with
  | case1 => exact h
  | case2 l' rest blank ih => exact List.mem_cons_of_mem _ (ih h)
  | case3 l' rest found here ends => exact h
  | case4 l' rest found here goes ih => exact List.mem_cons_of_mem _ (ih h)

lemma keeps_skipJunk {ls : List RawLine} (closed : ∀ l ∈ ls, l.IsClosed) :
    Keeps ((skipJunk ls).1.flatMap Line.tokens ++ (skipJunk ls).2.flatMap RawLine.tokens)
      (ls.flatMap RawLine.tokens) := by
  fun_induction skipJunk ls with
  | case1 => exact .refl []
  | case2 l rest blank ih =>
    obtain ⟨first, others⟩ := List.forall_mem_cons.mp closed
    exact (RawLine.keeps_of_significant?_none first blank).append (ih others)
  | case3 l rest found here ends => exact .refl _
  | case4 l rest found here goes ih =>
    obtain ⟨first, others⟩ := List.forall_mem_cons.mp closed
    simpa using (Line.keeps_of_significant? here).append (ih others)

end Opening

lemma Feature.keeps_items_ofLines (eof : Token) {ls : List RawLine} (closed : ∀ l ∈ ls, l.IsClosed) :
    Keeps ((ofLines eof ls).opening.junk.flatMap Line.tokens ++
      (ofLines eof ls).items.flatMap Item.tokens) (ls.flatMap RawLine.tokens) := by
  have below : ∀ l ∈ (Opening.skipJunk ls).2, l.IsClosed :=
    fun l h => closed l (Opening.mem_of_mem_skipJunk l h)
  rw [items_ofLines]
  exact ((Keeps.refl _).append (Item.keeps_ofLines none below)).trans (Opening.keeps_skipJunk closed)

lemma Feature.keeps_ofLines (eof : Token) {ls : List RawLine} (closed : ∀ l ∈ ls, l.IsClosed) :
    Keeps (ofLines eof ls).tree.leaves (ls.flatMap RawLine.tokens) := by
  have below : ∀ l ∈ (Opening.skipJunk ls).2, l.IsClosed :=
    fun l h => closed l (Opening.mem_of_mem_skipJunk l h)
  have items := items_ofLines eof ls
  have tree := Feature.keeps (ofLines eof ls) (items ▸ Item.isClosed_ofLines none below)
  exact tree.trans (keeps_items_ofLines eof closed)

lemma Feature.keeps_items_ofStream (s : Stream) :
    Keeps ((ofStream s).opening.junk.flatMap Line.tokens ++ (ofStream s).items.flatMap Item.tokens)
      s.content := by
  have kept := keeps_items_ofLines s.eof (RawLine.isClosed_ofTokens s.content)
  rwa [RawLine.flatMap_tokens_ofTokens] at kept

lemma Feature.keeps_ofStream (s : Stream) : Keeps (ofStream s).tree.leaves s.content := by
  have kept := keeps_ofLines s.eof (RawLine.isClosed_ofTokens s.content)
  rwa [RawLine.flatMap_tokens_ofTokens] at kept

lemma Stream.nodup_tokens (text : List Char) : (ofText text).tokens.Nodup :=
  (pairwise_tokens text).imp fun before same => absurd before (by simp [same])

namespace Parsed

lemma keeps_items (options : Options) (text : List Char) :
    let f := (parse options text).feature
    Keeps (f.opening.junk.flatMap Line.tokens ++ f.items.flatMap Item.tokens)
      (parse options text).stream.content :=
  Feature.keeps_items_ofStream (Stream.ofText text)

lemma mem_leaves_of_default {options : Options} {text : List Char} {t : Token}
    (h : t ∈ (parse options text).tokens) (content : t.channel = .default) (inner : t.kind ≠ .eof) :
    t ∈ (parse options text).root.leaves := by
  have significant : t.kind.isTrivia = false := by
    simpa [Token.channel, TokenKind.channel] using content
  rcases List.mem_append.mp h with h | h
  · exact (Feature.keeps_ofStream (Stream.ofText text)).mem h significant
  · obtain rfl := List.mem_singleton.mp h
    exact absurd rfl inner

theorem leaves_complete (options : Options) (text : List Char) :
    let p := parse options text
    p.root.leaves.Sublist p.tokens ∧ p.tokens.Nodup ∧
      (∀ t ∈ p.tokens, t.channel = .default → t.kind ≠ .eof → t ∈ p.root.leaves) ∧
      ∀ t ∈ p.tokens, t ∉ p.root.leaves → t.kind ∈ [.space, .tab, .eol, .comment, .eof] := by
  refine ⟨?_, Stream.nodup_tokens text, fun t => mem_leaves_of_default, ?_⟩
  · have kept := (Feature.keeps_ofStream (Stream.ofText text)).sublist
    exact kept.trans (List.sublist_append_left _ _)
  · intro t h absent
    by_cases inner : t.kind = .eof
    · simp [inner]
    · have hidden : t.channel ≠ .default :=
        fun content => absent (mem_leaves_of_default h content inner)
      cases kind : t.kind <;>
        simp_all [Token.channel, TokenKind.channel, TokenKind.isTrivia]

end Parsed

end FeatureFile
