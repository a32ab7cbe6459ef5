import FeatureFile.Proofs.Grammar.Follow

namespace FeatureFile.Grammar

open RegularExpression (char star)

def GrowsAt (L : Language Symbol) (w : List Symbol) : Prop :=
  ∀ u d v, w = u ++ .step :: (d ++ v) → d = [] ∨ d = [.doc] →
    v.head? ≠ some .doc → v.head? ≠ some .row →
    ∀ n, u ++ .step :: (d ++ (List.replicate n .row ++ v)) ∈ L

structure Grows (r : RegularExpression Symbol) : Prop where
  grow : ∀ w ∈ r.matches', GrowsAt r.matches' w
  undoc : ∀ w ∈ r.matches', w.head? ≠ some .doc

variable {r s : RegularExpression Symbol}

lemma growsAt_of_not_mem {L : Language Symbol} {w : List Symbol} (none : .step ∉ w) :
    GrowsAt L w := by
  rintro u d v rfl
  exact absurd (List.mem_append_right _ List.mem_cons_self) none

lemma head?_ne_of_append {a : Symbol} {front back : List Symbol}
    (h : (front ++ back).head? ≠ some a) : front.head? ≠ some a := by
  cases front with
  | nil => simp
  | cons b front => exact h

lemma growsAt_append {K L M : Language Symbol} {x y : List Symbol}
    (join : ∀ x ∈ K, ∀ y ∈ L, x ++ y ∈ M) (hx : x ∈ K) (hy : y ∈ L) (front : GrowsAt K x)
    (back : GrowsAt L y) (undoc : y.head? ≠ some .doc) : GrowsAt M (x ++ y) := by
  intro u d v whole doc undoc' unrow n
  have inBack {c : List Symbol} (hu : u = x ++ c) (hy' : y = c ++ .step :: (d ++ v)) :
      u ++ .step :: (d ++ (List.replicate n .row ++ v)) ∈ M := by
    have grown := back c d v hy' doc undoc' unrow n
    rw [hu, List.append_assoc]
    exact join x hx _ grown
  rcases List.append_eq_append_iff.mp whole with ⟨c, hu, hy'⟩ | ⟨c, hx', below⟩
  · exact inBack hu hy'
  · cases c with
    | nil => exact inBack (c := []) (by simpa using hx'.symm) below.symm
    | cons a c =>
      obtain ⟨rfl, tail⟩ := List.cons.inj below
      -- The step is one of the front, and with it all that is below it.
      obtain ⟨e, rfl, hv⟩ : ∃ e, c = d ++ e ∧ v = e ++ y := by
        rcases List.append_eq_append_iff.mp tail with ⟨e, hc, hv⟩ | ⟨e, hd, hy'⟩
        · exact ⟨e, hc, hv⟩
        · have none : e = [] := by
            rcases doc with rfl | rfl
            · exact (List.append_eq_nil_iff.mp hd.symm).2
            · cases c with
              | nil =>
                obtain rfl : e = [.doc] := hd.symm
                exact absurd (congrArg List.head? hy') undoc
              | cons b c => exact (List.append_eq_nil_iff.mp (List.cons.inj hd).2.symm).2
          subst none
          exact ⟨[], by simpa using hd.symm, by simpa using hy'.symm⟩
      subst hv
      have grown := front u d e hx' doc (head?_ne_of_append undoc') (head?_ne_of_append unrow) n
      have joined := join _ grown y hy
      simpa only [List.append_assoc, List.cons_append] using joined

namespace Grows

lemma head?_append {x y : List Symbol} (hx : x.head? ≠ some .doc) (hy : y.head? ≠ some .doc) :
    (x ++ y).head? ≠ some .doc := by
  cases x with
  | nil => exact hy
  | cons a x => exact hx

lemma char {a : Symbol} (step : a ≠ .step) (doc : a ≠ .doc) : Grows (char a) := by
  constructor <;> rintro w rfl
  · exact growsAt_of_not_mem (by simpa using step.symm)
  · simpa using doc

lemma mul (h : Grows r) (h' : Grows s) : Grows (r * s) := by
  constructor <;> rintro w ⟨x, hx, y, hy, rfl⟩
  · exact growsAt_append (fun _ hx _ hy => Language.append_mem_mul hx hy) hx hy (h.grow x hx)
      (h'.grow y hy) (h'.undoc y hy)
  · exact head?_append (h.undoc x hx) (h'.undoc y hy)

lemma add (h : Grows r) (h' : Grows s) : Grows (r + s) := by
  refine ⟨fun w hw u d v whole doc undoc unrow n => ?_, fun w hw => ?_⟩
  · exact hw.imp (fun hw => h.grow w hw u d v whole doc undoc unrow n)
      fun hw => h'.grow w hw u d v whole doc undoc unrow n
  · exact hw.elim (h.undoc w) (h'.undoc w)

lemma opt (h : Grows r) : Grows (1 + r) := by
  refine .add ⟨?_, ?_⟩ h <;> rintro w rfl
  · exact growsAt_of_not_mem (by simp)
  · simp

lemma star (h : Grows r) : Grows (star r) := by
  have all (words : List (List Symbol)) (each : ∀ w ∈ words, w ∈ r.matches') :
      GrowsAt (RegularExpression.star r).matches' words.flatten ∧
        words.flatten.head? ≠ some .doc := by
    induction words with
    | nil => exact ⟨growsAt_of_not_mem (by simp), by simp⟩
    | cons w words ih =>
      obtain ⟨first, others⟩ := List.forall_mem_cons.mp each
      obtain ⟨back, undoc⟩ := ih others
      refine ⟨growsAt_append (fun x hx y hy => ?_) first (Language.join_mem_kstar others)
        (h.grow w first) back undoc, head?_append (h.undoc w first) undoc⟩
      obtain ⟨words', rfl, each'⟩ := Language.mem_kstar.mp hy
      exact Language.join_mem_kstar (L := x :: words') (List.forall_mem_cons.mpr ⟨hx, each'⟩)
  constructor <;> intro w hw <;> obtain ⟨words, rfl, each⟩ := Language.mem_kstar.mp hw
  · exact (all words each).1
  · exact (all words each).2

end Grows

lemma mem_star_char {a : Symbol} {w : List Symbol} :
    w ∈ (star (char a)).matches' ↔ ∃ n, w = List.replicate n a := by
  constructor
  · intro hw
    obtain ⟨words, rfl, each⟩ := Language.mem_kstar.mp hw
    have same : words = List.replicate words.length [a] := List.eq_replicate_iff.mpr ⟨rfl, each⟩
    exact ⟨words.length, by rw [same]; simp⟩
  · rintro ⟨n, rfl⟩
    refine Language.mem_kstar.mpr ⟨List.replicate n [a], by simp, fun w hw => ?_⟩
    exact List.eq_of_mem_replicate hw

lemma mem_step {w : List Symbol} :
    w ∈ step.matches' ↔
      ∃ d n, (d = [] ∨ d = [.doc]) ∧ w = .step :: (d ++ List.replicate n .row) := by
  constructor
  · rintro ⟨_, ⟨_, rfl, d, doc, rfl⟩, _, rows, rfl⟩
    obtain ⟨n, rfl⟩ := mem_star_char.mp rows
    exact ⟨d, n, doc, rfl⟩
  · rintro ⟨d, n, doc, rfl⟩
    exact ⟨.step :: d, ⟨[.step], rfl, d, doc, rfl⟩, _, mem_star_char.mpr ⟨n, rfl⟩, rfl⟩

lemma grows_step : Grows step := by
  refine ⟨fun w hw u d v whole doc undoc unrow n => ?_, fun w hw => ?_⟩
  · obtain ⟨d', n', doc', rfl⟩ := mem_step.mp hw
    -- A word of one step has no second one, and here no row either.
    have first : u = [] := by
      cases u with
      | nil => rfl
      | cons a u =>
        have again : Symbol.step ∈ d' ++ List.replicate n' .row := by
          rw [(List.cons.inj whole).2]
          simp
        rcases doc' with rfl | rfl <;> simp at again
    subst first
    have below : d' ++ List.replicate n' .row = d ++ v := (List.cons.inj whole).2
    have last : v = [] := by
      cases v with
      | nil => rfl
      | cons b v =>
        rcases doc with rfl | rfl <;> rcases doc' with rfl | rfl <;> cases n' <;>
          simp_all [List.replicate_succ]
    subst last
    exact mem_step.mpr ⟨d, n, doc, by simp⟩
  · obtain ⟨d, n, -, rfl⟩ := mem_step.mp hw
    simp

section

variable {a : Symbol}

lemma grows_header (step : a ≠ .step) (doc : a ≠ .doc) : Grows (header a) :=
  (Grows.char step doc).mul (Grows.char (by decide) (by decide)).star

lemma grows_heading (step : a ≠ .step) (doc : a ≠ .doc) : Grows (heading a) :=
  (Grows.char (by decide) (by decide)).star.mul (grows_header step doc)

lemma grows_feature : Grows feature :=
  have row : Grows (char .row) := .char (by decide) (by decide)
  have steps := grows_step.star
  have table := (grows_heading (a := .examples) (by decide) (by decide)).mul (row.mul row.star)
  have scenario := (grows_heading (a := .scenario) (by decide) (by decide)).mul steps
  have outline := ((grows_heading (a := .outline) (by decide) (by decide)).mul steps).mul
    (table.mul table.star)
  have items := (scenario.add outline).star
  have background := ((grows_header (a := .background) (by decide) (by decide)).mul steps).opt
  have rule := ((grows_heading (a := .rule) (by decide) (by decide)).mul background).mul items
  ((grows_heading (a := .feature) (by decide) (by decide)).mul background).mul
    ((rule.mul rule.star).add items)

end

lemma spells_feature_rows {good : Item → Prop} {l : Line} {before doc below rows : List Item}
    (spelled : Spells good feature (before ++ .line l :: (doc ++ below)))
    (step : Symbol.ofKind l.kind = .step) (block : doc.map Item.symbol ∈ [[], [.doc]])
    (undoc : next below ≠ some .doc) (unrow : next below ≠ some .row)
    (bars : ∀ i ∈ rows, i.symbol = .row ∧ good i) :
    Spells good feature (before ++ .line l :: (doc ++ (rows ++ below))) := by
  obtain ⟨word, all⟩ := spelled
  obtain ⟨front, back⟩ := List.forall_mem_append.mp all
  obtain ⟨first, others⟩ := List.forall_mem_cons.mp back
  obtain ⟨doc', rest⟩ := List.forall_mem_append.mp others
  have symbols : rows.map Item.symbol = List.replicate rows.length .row := by
    rw [List.eq_replicate_iff, List.length_map]
    refine ⟨rfl, fun s hs => ?_⟩
    obtain ⟨i, hi, rfl⟩ := List.mem_map.mp hs
    exact (bars i hi).1
  rw [next, ← List.head?_map] at undoc unrow
  have grown := grows_feature.grow _ word (before.map Item.symbol) (doc.map Item.symbol)
    (below.map Item.symbol) (by simp [Item.symbol, step]) (by simpa using block) undoc unrow
    rows.length
  refine ⟨by simpa [Item.symbol, step, symbols] using grown, ?_⟩
  exact List.forall_mem_append.mpr ⟨front, List.forall_mem_cons.mpr ⟨first,
    List.forall_mem_append.mpr ⟨doc', List.forall_mem_append.mpr ⟨fun i hi => (bars i hi).2, rest⟩⟩⟩⟩

end FeatureFile.Grammar
