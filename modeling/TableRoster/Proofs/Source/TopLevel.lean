import TableRoster.Proofs.Source.Locality

/-! # Bindings outside of brackets

Statements are read in steps that jump over groups, types and expressions, and each step keeps a
nesting of its own. Counted over all tokens of the module, each step starts and ends outside of
brackets, whatever the module is. -/

namespace TableRoster.Source

variable {d n i j k : Nat} {t : Token} {ts us vs done : List Token} {p : Placed} {ps qs rs : List Placed}
  {text : String}

/-! ## Nesting and depth -/

theorem Token.depthAfter_of_nest? (h : t.nest? d = some n) : t.depthAfter d = n := by
  cases nest?_eq_some.1 h with
  | opens ho => simp [depthAfter, ho]
  | closes ho hc => simp [depthAfter, ho, hc]
  | stays ho hc => simp [depthAfter, ho, hc]

/-- Where no bracket closes what no token opened, the depth is the nesting. -/
theorem depthOf_append (h : nesting? (depthOf done) us = some n) : depthOf (done ++ us) = n := by
  induction us generalizing done with
  | nil =>
    rw [List.append_nil]
    exact Option.some.inj h
  | cons t us ih =>
    rw [nesting?_cons] at h
    obtain ⟨m, hm, hn⟩ := Option.bind_eq_some_iff.1 h
    have hdepth : depthOf (done ++ [t]) = m := by
      rw [depthOf, List.foldl_append]
      exact Token.depthAfter_of_nest? hm
    rw [← List.singleton_append, ← List.append_assoc]
    exact ih (hdepth ▸ hn)

theorem Token.nest?_of_opens (h : t.opens = true) (d : Nat) : t.nest? d = some (d + 1) := by
  rw [nest?, if_pos h]

theorem Token.nest?_of_closes (ho : ¬ t.opens = true) (h : t.closes = true) (hd : d ≠ 0) :
    t.nest? d = some (d - 1) := by
  rw [nest?, if_neg ho, if_pos h, if_neg hd]

theorem Token.nest?_of_neither (ho : ¬ t.opens = true) (hc : ¬ t.closes = true) (d : Nat) :
    t.nest? d = some d := by
  rw [nest?, if_neg ho, if_neg hc]

/-- A word or a mark that is no bracket. -/
def NoBracket (text : String) : Prop :=
  text ∉ ["(", "[", "\x7b", ")", "]", "\x7d"]

instance : DecidablePred NoBracket := fun _ => inferInstanceAs (Decidable (¬ _))

theorem Token.nest?_of_is (h : t.is text = true) (hn : NoBracket text) (d : Nat) :
    t.nest? d = some d := by
  simp only [is, Bool.and_eq_true, beq_iff_eq] at h
  obtain ⟨-, rfl⟩ := h
  simp only [NoBracket, List.mem_cons, List.not_mem_nil, or_false, not_or] at hn
  refine nest?_of_neither ?_ ?_ d <;> simp [opens, closes, isMarkOf, hn]

theorem Token.nest?_of_word (h : t.kind = .word) (d : Nat) : t.nest? d = some d :=
  nest?_of_neither (by simp [opens_of_word h]) (by simp [closes_of_word h]) d

/-! ## Taking tokens from a row -/

/-- Tokens are taken from a row at some nesting, and another row is left. This stops outside of brackets,
or at the end of the module. -/
inductive Takes : Nat → List Placed → List Token → List Placed → Prop
  | stop (ps : List Placed) : Takes 0 ps [] ps
  | out (d : Nat) : Takes d [] [] []
  | next {d d' p ps us qs} : p.token.nest? d = some d' → Takes d' ps us qs →
      Takes d (p :: ps) (p.token :: us) qs

namespace Takes

theorem trans (h : Takes d ps us qs) (h' : Takes 0 qs vs rs) : Takes d ps (us ++ vs) rs := by
  induction h with
  | stop => exact h'
  | out d =>
    cases h' with
    | stop => exact .out d
    | out => exact .out d
  | next hn _ ih => exact .next hn (ih h')

theorem one (h : p.token.nest? 0 = some 0) (ps : List Placed) : Takes 0 (p :: ps) [p.token] ps :=
  .next h (.stop ps)

theorem tokens (h : Takes d ps us qs) : ps.map Placed.token = us ++ qs.map Placed.token := by
  induction h with
  | stop => rfl
  | out => rfl
  | next _ _ ih => rw [List.map_cons, ih, List.cons_append]

/-- The nesting never goes below zero, and ends at zero before the end of the module. -/
theorem nesting (h : Takes d ps us qs) : ∃ n, nesting? d us = some n ∧ (qs = [] ∨ n = 0) := by
  induction h with
  | stop => exact ⟨0, rfl, .inr rfl⟩
  | out d => exact ⟨d, rfl, .inl rfl⟩
  | next hn _ ih =>
    obtain ⟨n, hus, hend⟩ := ih
    exact ⟨n, by rw [nesting?_cons, hn]; exact hus, hend⟩

end Takes

theorem splitGroup_takes (hd : 1 ≤ d) (ps : List Placed) :
    Takes d ps (splitGroup d ps).1 (splitGroup d ps).2 := by
  induction ps generalizing d with
  | nil => exact .out d
  | cons p ps ih =>
    simp only [splitGroup]
    split
    · rename_i ho
      exact .next (Token.nest?_of_opens ho d) (ih (by omega))
    · rename_i ho
      split
      · rename_i hc
        have hn := Token.nest?_of_closes ho hc (d := d) (by omega)
        split
        · obtain rfl : d = 1 := by omega
          exact .next hn (.stop ps)
        · exact .next hn (ih (by omega))
      · rename_i hc
        exact .next (Token.nest?_of_neither ho hc d) (ih hd)

theorem splitExpression_takes (d : Nat) (ps : List Placed) :
    Takes d ps (splitExpression d ps).1 (splitExpression d ps).2 := by
  induction ps generalizing d with
  | nil => exact .out d
  | cons p ps ih =>
    simp only [splitExpression]
    split
    · rename_i ho
      exact .next (Token.nest?_of_opens ho d) (ih _)
    · rename_i ho
      split
      · rename_i hc
        split
        · rename_i hd
          exact hd ▸ .stop _
        · rename_i hd
          exact .next (Token.nest?_of_closes ho hc hd) (ih _)
      · rename_i hc
        have hn := Token.nest?_of_neither ho hc d
        split
        · rename_i hs
          exact hs.1 ▸ .stop _
        · split
          · rename_i hs
            exact hs.1 ▸ .stop _
          · exact .next hn (ih _)

/-- Angles do not matter for the nesting. -/
theorem splitType_takes (d a : Nat) (ps : List Placed) :
    Takes d ps (splitType d a ps).1 (splitType d a ps).2 := by
  induction ps generalizing d a with
  | nil => exact .out d
  | cons p ps ih =>
    simp only [splitType]
    split
    · rename_i ho
      exact .next (Token.nest?_of_opens ho d) (ih _ _)
    · rename_i ho
      split
      · rename_i hc
        split
        · rename_i hd
          exact hd ▸ .stop _
        · rename_i hd
          exact .next (Token.nest?_of_closes ho hc hd) (ih _ _)
      · rename_i hc
        have hn := Token.nest?_of_neither ho hc d
        split
        · exact .next hn (ih _ _)
        split
        · exact .next hn (ih _ _)
        split
        · rename_i hs
          exact hs.1 ▸ .stop _
        split
        · rename_i hs
          exact hs.1 ▸ .stop _
        · exact .next hn (ih _ _)

theorem skipBreaks_takes (ps : List Placed) : ∃ us, Takes 0 ps us (skipBreaks ps) := by
  induction ps with
  | nil => exact ⟨[], .out 0⟩
  | cons p ps ih =>
    unfold skipBreaks
    rw [List.dropWhile_cons]
    split
    · rename_i hb
      obtain ⟨us, h⟩ := ih
      exact ⟨_, .next (Token.nest?_of_isBreak hb 0) h⟩
    · exact ⟨[], .stop _⟩

theorem tail_takes (h : nextIs ps text = true) (hn : NoBracket text) : ∃ us, Takes 0 ps us ps.tail := by
  cases ps with
  | nil => cases h
  | cons p ps => exact ⟨_, .one (Token.nest?_of_is h hn 0) ps⟩

/-! ## One binding -/

theorem target?_takes {name : Option String} (h : target? p ps = some (name, qs)) :
    ∃ us, Takes 0 (p :: ps) (p.token :: us) qs ∧ ∀ x, name = some x →
      p.token.kind = .word ∧ p.token.text = x := by
  unfold target? at h
  split at h
  · rename_i hm
    cases h
    have ho : p.token.opens = true := by
      simp only [Token.isMarkOf, Bool.and_eq_true, beq_iff_eq, List.contains_iff_mem, List.mem_cons,
        List.not_mem_nil, or_false] at hm
      obtain ⟨hk, ht | ht⟩ := hm <;> simp [Token.opens, Token.isMarkOf, hk, ht]
    exact ⟨_, .next (Token.nest?_of_opens ho 0) (splitGroup_takes (Nat.le_refl 1) ps), by simp⟩
  · split at h
    · rename_i hk
      cases h
      exact ⟨_, .one (Token.nest?_of_word hk 0) ps, fun x hx => ⟨hk, Option.some.inj hx⟩⟩
    · cases h

theorem dropMark_takes (hn : NoBracket text) (ps : List Placed) :
    ∃ us, Takes 0 ps us (dropMark text ps) := by
  unfold dropMark
  split
  · rename_i h
    exact tail_takes h hn
  · exact ⟨[], .stop ps⟩

theorem skipColonType_takes (ps : List Placed) : ∃ us, Takes 0 ps us (skipColonType ps) := by
  unfold skipColonType
  split
  · rename_i h
    obtain ⟨us, hus⟩ := tail_takes h (by decide)
    exact ⟨_, hus.trans (splitType_takes 0 0 ps.tail)⟩
  · exact ⟨[], .stop ps⟩

/-- An initializer extends over a range of tokens of its own, which is empty if there is none. -/
theorem initializer_takes (ps : List Placed) : ∃ us mid vs, Takes 0 ps us mid
    ∧ Takes 0 mid vs (initializer ps).2 ∧ (initializer ps).1 = extentOf vs := by
  unfold initializer
  split
  · rename_i h
    obtain ⟨us, hus⟩ := tail_takes h (by decide)
    exact ⟨us, _, _, hus, splitExpression_takes 0 ps.tail, rfl⟩
  · exact ⟨[], ps, [], .stop ps, .stop ps, rfl⟩

/-- Where a binding stands among the tokens of its module: its name, and the range of its initializer. -/
structure Site where
  name : Nat
  first : Nat
  stop : Nat

def Site.range (ts : List Token) (x : Site) : List Token :=
  (ts.take x.stop).drop x.first

/-- A binding stands at its name, outside of brackets, and its initializer is the range. -/
structure Site.Holds (ts : List Token) (b : Binding) (x : Site) : Prop where
  name : ∃ t, ts[x.name]? = some t ∧ t.kind = .word ∧ t.text = b.name ∧ t.line = b.line
  outside : depthOf (ts.take x.name) = 0
  extent : b.extent = extentOf (x.range ts)
  nested : ∃ n, nesting? 0 (x.range ts) = some n ∧ (x.stop = ts.length ∨ n = 0)

/-- Bindings stand at these sites, one behind the other, in a part of the module. -/
structure Sited (ts : List Token) (i j : Nat) (bs : List Binding) (xs : List Site) : Prop where
  le : i ≤ j
  holds : List.Forall₂ (Site.Holds ts) bs xs
  within : ∀ x ∈ xs, i ≤ x.name ∧ x.name < x.first ∧ x.first ≤ x.stop ∧ x.stop ≤ j
  ordered : xs.Pairwise fun x y => x.name < y.name ∧ x.stop ≤ y.first

namespace Sited

variable {bs cs : List Binding} {xs ys : List Site}

theorem nil (ts : List Token) (h : i ≤ j) : Sited ts i j [] [] :=
  ⟨h, .nil, nofun, .nil⟩

theorem append (h : Sited ts i j bs xs) (h' : Sited ts j k cs ys) :
    Sited ts i k (bs ++ cs) (xs ++ ys) := by
  have hi := h.le
  have hk := h'.le
  refine ⟨Nat.le_trans hi hk, List.rel_append h.holds h'.holds, fun x hx => ?_, ?_⟩
  · rcases List.mem_append.1 hx with hx | hx
    · have := h.within x hx
      omega
    · have := h'.within x hx
      omega
  · refine List.pairwise_append.2 ⟨h.ordered, h'.ordered, fun x hx y hy => ?_⟩
    have := h.within x hx
    have := h'.within y hy
    omega

end Sited

/-- What stands before a row in its module: outside of brackets, if anything is left. -/
structure Outside (ts done : List Token) (ps : List Placed) : Prop where
  tokens : ts = done ++ ps.map Placed.token
  depth : ps = [] ∨ depthOf done = 0

theorem Outside.takes (h : Outside ts done ps) (ht : Takes 0 ps us qs) :
    Outside ts (done ++ us) qs := by
  refine ⟨by rw [h.tokens, ht.tokens, List.append_assoc], ?_⟩
  obtain rfl | hd := h.depth
  · have := ht.tokens
    simp only [List.map_nil, List.nil_eq, List.append_eq_nil_iff, List.map_eq_nil_iff] at this
    exact .inl this.2
  · obtain ⟨n, hn, hend⟩ := ht.nesting
    rw [depthOf_append (hd ▸ hn)]
    exact hend

theorem Outside.depth_cons (h : Outside ts done (p :: ps)) : depthOf done = 0 :=
  h.depth.resolve_left (List.cons_ne_nil _ _)

/-- A binding whose initializer takes its tokens from a row behind the name. -/
theorem Outside.holds {b : Binding} {front : List Token} (h : Outside ts done (p :: ps))
    (hk : p.token.kind = .word) (hname : p.token.text = b.name) (hline : p.token.line = b.line)
    (hfront : Takes 0 (p :: ps) (p.token :: front) qs) (htake : Takes 0 qs vs rs)
    (hextent : b.extent = extentOf vs) :
    Site.Holds ts b ⟨done.length, (done ++ p.token :: front).length,
      (done ++ (p.token :: front ++ vs)).length⟩ := by
  have hall := (h.takes (hfront.trans htake)).tokens
  have hrange : Site.range ts ⟨done.length, (done ++ p.token :: front).length,
      (done ++ (p.token :: front ++ vs)).length⟩ = vs := by
    rw [Site.range, hall, List.take_left, ← List.append_assoc, List.drop_left]
  refine ⟨⟨p.token, ?_, hk, hname, hline⟩, ?_, by rw [hrange, hextent], ?_⟩
  · rw [h.tokens]
    simp
  · rw [h.tokens, List.take_left, h.depth_cons]
  · obtain ⟨n, hn, hend⟩ := htake.nesting
    refine ⟨n, by rw [hrange, hn], ?_⟩
    obtain rfl | hn := hend
    · left
      rw [hall]
      simp
    · exact .inr hn

/-! ## Statements -/

/-- Bindings are read from one row up to another, and stand between the two. -/
def Binds (ts : List Token) (ps : List Placed) (bs : List Binding) (qs : List Placed) : Prop :=
  ∀ done, Outside ts done ps → ∃ us xs, Takes 0 ps us qs
    ∧ Sited ts done.length (done ++ us).length bs xs

theorem Takes.binds (h : Takes 0 ps us qs) : Binds ts ps [] qs :=
  fun _ _ => ⟨us, [], h, .nil ts (by simp)⟩

theorem Binds.trans {bs cs : List Binding} (h : Binds ts ps bs qs) (h' : Binds ts qs cs rs) :
    Binds ts ps (bs ++ cs) rs := by
  intro done ho
  obtain ⟨us, xs, hus, hxs⟩ := h done ho
  obtain ⟨vs, ys, hvs, hys⟩ := h' _ (ho.takes hus)
  rw [List.append_assoc] at hys
  exact ⟨us ++ vs, xs ++ ys, hus.trans hvs, hxs.append hys⟩

theorem skipBreaks_binds (ps : List Placed) : Binds ts ps [] (skipBreaks ps) :=
  (skipBreaks_takes ps).choose_spec.binds

theorem tail_binds (h : nextIs ps text = true) (hn : NoBracket text) : Binds ts ps [] ps.tail :=
  (tail_takes h hn).choose_spec.binds

theorem binding?_binds {b : Option Binding} (h : binding? p ps = some (b, qs)) :
    Binds ts (p :: ps) b.toList qs := by
  intro done ho
  unfold binding? at h
  obtain ⟨⟨name, rest⟩, htarget, hb⟩ := Option.map_eq_some_iff.1 h
  obtain ⟨us₁, h₁, hname⟩ := target?_takes htarget
  obtain ⟨us₂, h₂⟩ : ∃ us, Takes 0 rest us (dropMark "!" rest) := dropMark_takes (by decide) rest
  obtain ⟨us₃, h₃⟩ := skipColonType_takes (dropMark "!" rest)
  obtain ⟨us₄, mid, vs, h₄, htake, hextent⟩ := initializer_takes (skipColonType (dropMark "!" rest))
  -- all that stands before the initializer, from the name on
  have hfront : Takes 0 (p :: ps) (p.token :: (us₁ ++ us₂ ++ us₃ ++ us₄)) mid := by
    have := ((h₁.trans h₂).trans h₃).trans h₄
    simpa using this
  have htaken := hfront.trans htake
  cases hb
  cases name with
  | none => exact ⟨_, [], htaken, .nil ts (by simp)⟩
  | some x =>
    obtain ⟨hk, hx⟩ := hname x rfl
    refine ⟨_, [_], htaken, by simp, .cons (ho.holds hk hx rfl hfront htake hextent) .nil, ?_,
      List.pairwise_singleton _ _⟩
    simp

theorem bindings_binds (ps : List Placed) : Binds ts ps (bindings ps).1 (bindings ps).2 := by
  fun_induction bindings ps with
  | case1 ps h => exact h ▸ skipBreaks_binds ps
  | case2 ps p qs h hb => exact h ▸ skipBreaks_binds ps
  | case3 ps p qs h b rest hb hc more ih =>
    have hbreaks : Binds ts ps [] (p :: qs) := h ▸ skipBreaks_binds ps
    have hcomma : Binds ts rest [] rest.tail := tail_binds hc (by decide)
    exact hbreaks.trans ((binding?_binds hb).trans (hcomma.trans ih))
  | case4 ps p qs h b rest hb hc =>
    have hbreaks : Binds ts ps [] (p :: qs) := h ▸ skipBreaks_binds ps
    exact hbreaks.trans (binding?_binds hb)

/-- The bindings that a statement binds. -/
def Statement.bound : Statement → List Binding
  | .bindings _ _ bound => bound
  | _ => []

theorem exportClause_binds (h : p.token.opens = true) (ps : List Placed) :
    Binds ts (p :: ps) (exportClause ps).1.bound (exportClause ps).2 := by
  have hgroup : Binds ts (p :: ps) [] (splitGroup 1 ps).2 :=
    (Takes.next (Token.nest?_of_opens h 0) (splitGroup_takes (Nat.le_refl 1) ps)).binds
  unfold exportClause
  dsimp only
  split
  · rename_i hfrom
    exact hgroup.trans ((skipBreaks_binds _).trans (tail_binds hfrom (by decide)))
  · exact hgroup

theorem skipDeclare_binds (ps : List Placed) : Binds ts ps [] (skipDeclare ps) := by
  unfold skipDeclare
  split
  · rename_i h
    exact (tail_binds h (by decide)).trans (skipBreaks_binds _)
  · exact (Takes.stop ps).binds

theorem bindingStatement?_binds {e : Bool} {s : Statement}
    (h : bindingStatement? e ps = some (s, qs)) : Binds ts ps s.bound qs := by
  unfold bindingStatement? at h
  split at h
  · cases h
  · rename_i p ps
    dsimp only at h
    split at h
    · rename_i hk
      cases h
      have hkeyword : Binds ts (p :: ps) [] ps :=
        (Takes.one (Token.nest?_of_word (Token.kind_of_isWordOf hk.1) 0) ps).binds
      exact hkeyword.trans ((skipBreaks_binds ps).trans (bindings_binds _))
    · cases h

theorem statement?_binds {s : Statement}
    (hbrace : ∀ p ∈ ps, p.token.is "\x7b" = true → p.token.opens = true)
    (h : statement? ps = some (s, qs)) : Binds ts ps s.bound qs := by
  unfold statement? at h
  split at h
  · rename_i hexport
    have hstart : Binds ts ps [] (skipBreaks ps.tail) :=
      (tail_binds hexport (by decide)).trans (skipBreaks_binds _)
    have hsuffix := (skipBreaks_suffix ps.tail).trans (List.tail_suffix ps)
    dsimp only at h
    generalize skipBreaks ps.tail = rest at *
    split at h
    · rename_i hb
      cases rest with
      | nil => cases hb
      | cons p rest =>
        have hopens := hbrace p (hsuffix.subset List.mem_cons_self) hb
        have hclause : Binds ts (p :: rest) (exportClause rest).1.bound (exportClause rest).2 :=
          exportClause_binds hopens rest
        rw [show exportClause rest = (s, qs) from Option.some.inj h] at hclause
        exact hstart.trans hclause
    · split at h
      · cases h
      · exact hstart.trans ((skipDeclare_binds _).trans (bindingStatement?_binds h))
  · exact (skipDeclare_binds ps).trans (bindingStatement?_binds h)

/-- A token at which no statement starts is passed, and counted. -/
theorem Sited.pass {bs : List Binding} (hts : ts = done ++ (p :: qs).map Placed.token)
    (hd : depthOf done = d)
    (h : ts = done ++ [p.token] ++ qs.map Placed.token →
      depthOf (done ++ [p.token]) = p.token.depthAfter d →
      ∃ xs, Sited ts (done ++ [p.token]).length ts.length bs xs) :
    ∃ xs, Sited ts done.length ts.length bs xs := by
  have hdepth : depthOf (done ++ [p.token]) = p.token.depthAfter d := by
    rw [← hd, depthOf, depthOf, List.foldl_append]
    rfl
  obtain ⟨xs, hxs⟩ := h (by rw [hts]; simp) hdepth
  exact ⟨xs, (Sited.nil ts (by simp)).append hxs⟩

/-- The depth that the reading of statements counts is the depth over all tokens before. -/
theorem statements_sited (hbrace : ∀ t ∈ ts, t.is "\x7b" = true → t.opens = true)
    (hts : ts = done ++ ps.map Placed.token) (hd : ps = [] ∨ depthOf done = d) :
    ∃ xs, Sited ts done.length ts.length ((statements d ps).flatMap Statement.bound) xs := by
  fun_induction statements d ps generalizing done with
  | case1 d => exact ⟨[], .nil ts (by simp [hts])⟩
  | case2 d p qs ho ih =>
    refine Sited.pass hts (hd.resolve_left (List.cons_ne_nil _ _)) fun hts hd => ih hts (.inr ?_)
    rw [hd, Token.depthAfter, if_pos ho]
  | case3 d p qs ho hc ih =>
    refine Sited.pass hts (hd.resolve_left (List.cons_ne_nil _ _)) fun hts hd => ih hts (.inr ?_)
    rw [hd, Token.depthAfter, if_neg ho, if_pos hc]
  | case4 d p qs ho hc hw s rest h ih =>
    obtain ⟨rfl, -, -⟩ := hw
    have hbrace' : ∀ q ∈ p :: qs, q.token.is "\x7b" = true → q.token.opens = true := by
      intro q hq
      refine hbrace q.token ?_
      rw [hts]
      exact List.mem_append_right _ (List.mem_map_of_mem hq)
    have hout : Outside ts done (p :: qs) := ⟨hts, hd⟩
    obtain ⟨us, xs, hus, hxs⟩ := statement?_binds hbrace' h done hout
    obtain ⟨hts', hd'⟩ := hout.takes hus
    obtain ⟨ys, hys⟩ := ih hts' hd'
    exact ⟨xs ++ ys, hxs.append hys⟩
  | case5 d p qs ho hc hw h ih =>
    -- a word at which nothing starts that matters is no bracket either
    obtain ⟨rfl, -, -⟩ := hw
    refine Sited.pass hts (hd.resolve_left (List.cons_ne_nil _ _)) fun hts hd => ih hts (.inr ?_)
    rw [hd, Token.depthAfter, if_neg ho, if_neg hc]
  | case6 d p qs ho hc hw ih =>
    refine Sited.pass hts (hd.resolve_left (List.cons_ne_nil _ _)) fun hts hd => ih hts (.inr ?_)
    rw [hd, Token.depthAfter, if_neg ho, if_neg hc]

/-! ## Declarations -/

/-- The tokens of a range that are no line breaks. -/
def Site.solid (ts : List Token) (x : Site) : List Token :=
  (x.range ts).filter (!·.isBreak)

/-- A declaration stands at a site: its name is a word outside of all brackets, counted over all tokens
before, and its initializer is the text from the first to the last token of a range behind the name, line
breaks at the ends left out. In the range nothing closes that was opened before, and all that is opened
is closed, unless the range goes up to the end of the module. -/
structure Declaration.StandsAt (source : String) (d : Declaration) (x : Site) : Prop where
  name : ∃ t, (tokens source)[x.name]? = some t ∧ t.kind = .word ∧ t.text = d.name ∧ t.line = d.line
  outside : depthOf ((tokens source).take x.name) = 0
  range : x.name < x.first ∧ x.first ≤ x.stop ∧ x.stop ≤ (tokens source).length
  initializer : d.initializer = (x.solid (tokens source)).head?.bind fun a =>
    (x.solid (tokens source)).getLast?.map fun b => slice source.toList a.start b.stop
  nested : ∃ n, nesting? 0 (x.range (tokens source)) = some n
    ∧ (x.stop = (tokens source).length ∨ n = 0)

/-- What a declaration has of its binding. -/
def Binding.Declares (source : String) (b : Binding) (d : Declaration) : Prop :=
  d.name = b.name ∧ d.line = b.line
    ∧ d.initializer = b.extent.map fun e => slice source.toList e.1 e.2

theorem declarations_of_bound (source : String) (ss all : List Statement) :
    List.Forall₂ (Binding.Declares source) (ss.flatMap Statement.bound)
      (ss.flatMap (·.declarations source.toList all)) := by
  induction ss with
  | nil => exact .nil
  | cons s ss ih =>
    rw [List.flatMap_cons, List.flatMap_cons]
    refine List.rel_append ?_ ih
    cases s with
    | clause | passedOn => exact .nil
    | bindings exported keyword bound =>
      exact List.forall₂_map_right_iff.2 (List.forall₂_same.2 fun b _ => ⟨rfl, rfl, rfl⟩)

theorem Site.Holds.standsAt {source : String} {b : Binding} {dec : Declaration} {x : Site}
    (h : x.Holds (tokens source) b) (hd : b.Declares source dec)
    (hx : x.name < x.first ∧ x.first ≤ x.stop ∧ x.stop ≤ (tokens source).length) :
    dec.StandsAt source x := by
  obtain ⟨hname, hline, hinit⟩ := hd
  obtain ⟨t, ht, hk, htext, hl⟩ := h.name
  refine ⟨⟨t, ht, hk, htext.trans hname.symm, hl.trans hline.symm⟩, h.outside, hx, ?_, h.nested⟩
  rw [hinit, h.extent, extentOf, Site.solid]
  cases ((x.range (tokens source)).filter (!·.isBreak)).head? with
  | none => rfl
  | some a => cases ((x.range (tokens source)).filter (!·.isBreak)).getLast? <;> rfl

theorem Sited.standsAt {source : String} {bs : List Binding} {ds : List Declaration} {xs : List Site}
    (h : Sited (tokens source) i (tokens source).length bs xs)
    (hd : List.Forall₂ (Binding.Declares source) bs ds) :
    List.Forall₂ (Declaration.StandsAt source) ds xs := by
  obtain ⟨-, hb, hx, -⟩ := h
  induction hd generalizing xs with
  | nil =>
    cases hb
    exact .nil
  | cons hd _ ih =>
    cases hb with
    | cons hb hbs =>
      obtain ⟨hx, hxs⟩ := List.forall_mem_cons.1 hx
      exact .cons (hb.standsAt hd hx.2) (ih hbs hxs)

/-- The bindings of a module stand at sites, one behind the other. -/
theorem statementsOf_sited (source : String) :
    ∃ xs, Sited (tokens source) 0 (tokens source).length ((statementsOf source).flatMap Statement.bound) xs := by
  have htokens : tokens source = [] ++ (place none (tokens source)).map Placed.token :=
    (map_token_place none _).symm
  exact statements_sited (fun t ht => opens_of_is_brace ht) htokens (.inr rfl)

/-- Only bindings outside of all brackets are declared, one behind the other, whatever the module is:
their names come in the order of the declarations, and their initializers do not overlap. -/
theorem declarations_outside_brackets (source : String) :
    ∃ sites : List Site, List.Forall₂ (Declaration.StandsAt source) (declarations source) sites
      ∧ sites.Pairwise fun x y => x.name < y.name ∧ x.stop ≤ y.first := by
  obtain ⟨xs, hxs⟩ := statementsOf_sited source
  exact ⟨xs, hxs.standsAt (declarations_of_bound source _ _), hxs.ordered⟩

end TableRoster.Source
