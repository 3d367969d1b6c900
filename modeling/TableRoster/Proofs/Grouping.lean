import TableRoster.Proofs.Symbols

/-! # Each table once

Tables are told apart by a key in one pass: an item goes to the row of its key, and a new key starts a
row at the end. What the pass makes is fixed by three facts, and the groups of an aggregate module and
the symbols that it refuses have them too. So each table is in one group, and each that shares its
symbol is told. -/

namespace TableRoster

/-! ## Rows by key -/

section

variable {α β κ : Type} [DecidableEq κ] {key : α → κ} {item : α → β} {xs : List α} {P Q : κ → Prop}
  {rows rows' : List (κ × List β)}

/-- Rows with one more item: behind the items of its key, or, if the key is new, in a row at the end. -/
def enter (k : κ) (b : β) : List (κ × List β) → List (κ × List β)
  | [] => [(k, [b])]
  | r :: rows => if r.1 = k then (r.1, r.2 ++ [b]) :: rows else r :: enter k b rows

/-- The rows of items that are entered one by one. -/
def entered (key : α → κ) (item : α → β) (xs : List α) : List (κ × List β) :=
  xs.foldl (fun rows x => enter (key x) (item x) rows) []

/-- A row for each key of a kind, in the order in which the keys first occur, with the items of all that
have the key, in their order. -/
structure Gathers (key : α → κ) (item : α → β) (xs : List α) (P : κ → Prop)
    (rows : List (κ × List β)) : Prop where
  mem_iff : ∀ k, k ∈ rows.map (·.1) ↔ P k
  ordered : (rows.map (·.1)).Pairwise fun a b => (xs.map key).idxOf a < (xs.map key).idxOf b
  items : ∀ r ∈ rows, r.2 = (xs.filter (key · = r.1)).map item

theorem keys_enter (k : κ) (b : β) (rows : List (κ × List β)) : (enter k b rows).map (·.1)
    = if k ∈ rows.map (·.1) then rows.map (·.1) else rows.map (·.1) ++ [k] := by
  induction rows with
  | nil => rfl
  | cons r rows ih =>
    by_cases h : r.1 = k
    · simp [enter, h]
    · rw [enter, if_neg h, List.map_cons, ih, List.map_cons]
      by_cases hk : k ∈ rows.map (·.1)
      · rw [if_pos hk, if_pos (List.mem_cons_of_mem _ hk)]
      · rw [if_neg hk, if_neg (by simpa [Ne.symm h] using hk)]
        rfl

/-- A row is as it was, or has the new item behind the items that its key had. -/
theorem mem_enter {k : κ} {b : β} (hn : (rows.map (·.1)).Nodup) {r : κ × List β}
    (h : r ∈ enter k b rows) : (r ∈ rows ∧ r.1 ≠ k)
      ∨ r.1 = k ∧ ∃ bs, r.2 = bs ++ [b] ∧ ((k, bs) ∈ rows ∨ k ∉ rows.map (·.1) ∧ bs = []) := by
  induction rows with
  | nil =>
    obtain rfl := List.mem_singleton.1 h
    exact .inr ⟨rfl, [], rfl, .inr ⟨List.not_mem_nil, rfl⟩⟩
  | cons r' rows ih =>
    obtain ⟨hr', hn⟩ := List.nodup_cons.1 hn
    by_cases hk : r'.1 = k
    · rw [enter, if_pos hk] at h
      rcases List.mem_cons.1 h with rfl | h
      · exact .inr ⟨hk, r'.2, rfl, .inl (hk ▸ List.mem_cons_self)⟩
      · refine .inl ⟨List.mem_cons_of_mem _ h, fun he => hr' ?_⟩
        exact List.mem_map.2 ⟨r, h, he.trans hk.symm⟩
    · rw [enter, if_neg hk] at h
      rcases List.mem_cons.1 h with rfl | h
      · exact .inl ⟨List.mem_cons_self, hk⟩
      · rcases ih hn h with ⟨hmem, hne⟩ | ⟨he, bs, hbs, hrow⟩
        · exact .inl ⟨List.mem_cons_of_mem _ hmem, hne⟩
        · refine .inr ⟨he, bs, hbs, hrow.imp (List.mem_cons_of_mem _) ?_⟩
          rintro ⟨hnew, rfl⟩
          exact ⟨by simpa [Ne.symm hk] using hnew, rfl⟩

namespace Gathers

theorem nodup (h : Gathers key item xs P rows) : (rows.map (·.1)).Nodup :=
  h.ordered.imp fun hlt he => absurd (he ▸ hlt) (Nat.lt_irrefl _)

/-- One more item goes to the row of its key. -/
theorem enter (h : Gathers key item xs (· ∈ xs.map key) rows) (x : α) :
    Gathers key item (xs ++ [x]) (· ∈ (xs ++ [x]).map key) (enter (key x) (item x) rows) where
  mem_iff k := by
    rw [keys_enter, List.map_append, List.mem_append, List.map_singleton, List.mem_singleton]
    split
    · rename_i hx
      rw [h.mem_iff]
      exact ⟨.inl, fun hk => hk.elim id fun he => he ▸ (h.mem_iff _).1 hx⟩
    · rw [List.mem_append, List.mem_singleton, h.mem_iff]
  ordered := by
    have hold : ∀ k ∈ rows.map (·.1), ((xs ++ [x]).map key).idxOf k = (xs.map key).idxOf k := by
      intro k hk
      rw [List.map_append, List.idxOf_append_of_mem ((h.mem_iff k).1 hk)]
    have hrows : (rows.map (·.1)).Pairwise fun a b =>
        ((xs ++ [x]).map key).idxOf a < ((xs ++ [x]).map key).idxOf b :=
      h.ordered.imp_of_mem fun ha hb hlt => by rwa [hold _ ha, hold _ hb]
    rw [keys_enter]
    split
    · exact hrows
    · rename_i hx
      refine List.pairwise_append.2 ⟨hrows, List.pairwise_singleton _ _, fun k hk y hy => ?_⟩
      obtain rfl := List.mem_singleton.1 hy
      have hkey : key x ∉ xs.map key := fun hm => hx ((h.mem_iff _).2 hm)
      rw [hold k hk, List.map_append, List.idxOf_append_of_notMem hkey]
      exact Nat.lt_add_right _ (List.idxOf_lt_length_of_mem ((h.mem_iff k).1 hk))
  items r hr := by
    rw [List.filter_append, List.map_append]
    rcases mem_enter h.nodup hr with ⟨hmem, hne⟩ | ⟨he, bs, hbs, hrow⟩
    · simp [h.items r hmem, Ne.symm hne]
    · have hitems : bs = (xs.filter (key · = key x)).map item := by
        rcases hrow with hmem | ⟨hnew, rfl⟩
        · exact h.items _ hmem
        · have hno : ∀ y ∈ xs, key y ≠ key x := fun y hy hyx =>
            hnew ((h.mem_iff _).2 (hyx ▸ List.mem_map_of_mem hy))
          rw [List.filter_eq_nil_iff.2 (by simpa using hno), List.map_nil]
      rw [hbs, he, hitems]
      simp

/-- Rows are fixed by what they gather. -/
theorem unique (h : Gathers key item xs P rows) (h' : Gathers key item xs P rows') : rows = rows' := by
  have hkeys : rows.map (·.1) = rows'.map (·.1) := by
    refine List.Perm.eq_of_pairwise (fun a b _ _ hab hba => absurd (hab.trans hba) (Nat.lt_irrefl _))
      h.ordered h'.ordered ?_
    exact (List.perm_ext_iff_of_nodup h.nodup h'.nodup).2 fun k => by rw [h.mem_iff, h'.mem_iff]
  have hrow : ∀ {rs : List (κ × List β)}, Gathers key item xs P rs →
      rs = (rs.map (·.1)).map fun k => (k, (xs.filter (key · = k)).map item) := by
    intro rs hrs
    rw [List.map_map]
    exact (List.map_id rs).symm.trans (List.map_congr_left fun r hr => Prod.ext rfl (hrs.items r hr))
  rw [hrow h, hrow h', hkeys]

/-- Rows that are picked by their keys. -/
theorem filter (h : Gathers key item xs P rows) {p : κ × List β → Bool}
    (hp : ∀ r ∈ rows, p r = true ↔ Q r.1) :
    Gathers key item xs (fun k => P k ∧ Q k) (rows.filter p) where
  mem_iff k := by
    rw [← h.mem_iff, List.mem_map, List.mem_map]
    constructor
    · rintro ⟨r, hr, rfl⟩
      obtain ⟨hr, hpr⟩ := List.mem_filter.1 hr
      exact ⟨⟨r, hr, rfl⟩, (hp r hr).1 hpr⟩
    · rintro ⟨⟨r, hr, rfl⟩, hq⟩
      exact ⟨r, List.mem_filter.2 ⟨hr, (hp r hr).2 hq⟩, rfl⟩
  ordered := h.ordered.sublist (List.filter_sublist.map _)
  items r hr := h.items r (List.mem_of_mem_filter hr)

end Gathers

theorem gathers_entered (key : α → κ) (item : α → β) (xs : List α) :
    Gathers key item xs (· ∈ xs.map key) (entered key item xs) := by
  induction xs using List.reverseRecOn with
  | nil => exact ⟨fun k => Iff.rfl, .nil, nofun⟩
  | append_singleton xs x ih =>
    rw [entered, List.foldl_concat]
    exact ih.enter x

theorem firstSeen_ordered (ks : List κ) :
    (firstSeen ks).Pairwise fun a b => ks.idxOf a < ks.idxOf b := by
  induction ks with
  | nil => exact .nil
  | cons k ks ih =>
    have hne : ∀ a ∈ (firstSeen ks).filter (· ≠ k), k ≠ a := by
      intro a ha
      exact Ne.symm (by simpa using (List.mem_filter.1 ha).2)
    refine .cons (fun a ha => ?_) ((ih.filter _).imp_of_mem fun ha hb hlt => ?_)
    · rw [List.idxOf_cons_self, List.idxOf_cons_ne _ (hne a ha)]
      exact Nat.succ_pos _
    · rw [List.idxOf_cons_ne _ (hne _ ha), List.idxOf_cons_ne _ (hne _ hb)]
      exact Nat.succ_lt_succ hlt

/-- Keys that are taken first, each with a search for its items, make the same rows. -/
theorem gathers_firstSeen (key : α → κ) (item : α → β) (xs : List α) :
    Gathers key item xs (· ∈ xs.map key)
      ((firstSeen (xs.map key)).map fun k => (k, (xs.filter (key · = k)).map item)) where
  mem_iff k := by simp [Layout.mem_firstSeen, Function.comp_def]
  ordered := by simpa [List.map_map, Function.comp_def] using firstSeen_ordered (xs.map key)
  items := List.forall_mem_map.2 fun k _ => rfl

theorem entered_eq (key : α → κ) (item : α → β) (xs : List α) : entered key item xs
    = (firstSeen (xs.map key)).map fun k => (k, (xs.filter (key · = k)).map item) :=
  (gathers_entered key item xs).unique (gathers_firstSeen key item xs)

end

/-! ## Groups and repeated symbols -/

variable {s : Settings} {ts : List Table} {time : Timestamp}

theorem groups_eq_entered (ts : List Table) : groups ts = entered Table.specifier Table.symbol ts :=
  (entered_eq _ _ ts).symm

theorem duplicates_eq_entered (ts : List Table) :
    duplicates ts = (entered Table.symbol (·.module.text) ts).filter (·.2.length > 1) := by
  rw [entered_eq]
  rfl

/-- The repeated symbols, each with the modules of all its tables. -/
theorem gathers_duplicates (ts : List Table) :
    Gathers Table.symbol (·.module.text) ts (1 < (ts.map Table.symbol).count ·) (duplicates ts) := by
  have h := gathers_entered Table.symbol (·.module.text) ts
  have hcount : ∀ r ∈ entered Table.symbol (·.module.text) ts,
      decide (r.2.length > 1) = true ↔ 1 < (ts.map Table.symbol).count r.1 := by
    intro r hr
    rw [decide_eq_true_iff, h.items r hr, List.length_map, List.count_eq_countP, List.countP_map,
      List.countP_eq_length_filter]
    rfl
  rw [duplicates_eq_entered]
  have hpicked := h.filter (Q := (1 < (ts.map Table.symbol).count ·)) hcount
  refine ⟨fun k => (hpicked.mem_iff k).trans (and_iff_right_of_imp fun hk => ?_), hpicked.ordered,
    hpicked.items⟩
  exact List.count_pos_iff.1 (Nat.zero_lt_of_lt hk)

/-- Two places of a row have tables of one symbol. -/
def SharesSymbol (ts : List Table) : Prop :=
  ∃ i j, i < j ∧ j < ts.length ∧ (ts.map Table.symbol)[i]? = (ts.map Table.symbol)[j]?

theorem sharesSymbol_iff : SharesSymbol ts ↔ duplicates ts ≠ [] := by
  rw [ne_eq, duplicates_eq_nil_iff, List.nodup_iff_getElem?_ne_getElem?, SharesSymbol, List.length_map]
  push Not
  rfl

/-! ## Emitting -/

/-- The aggregate module cannot be made. -/
def Failure.IsEmission : Failure → Prop
  | .nothingToEmit | .unresolved _ | .duplicates _ => True
  | _ => False

namespace Aggregate

/-- What emitting can end with, and when. -/
theorem emit_cases (s : Settings) (time : Timestamp) (ts : List Table) :
    (ts = [] ∧ (emit s time ts).result = .error (.failure .nothingToEmit))
    ∨ (ts ≠ [] ∧ (∃ t ∈ ts, t.specifier = "")
      ∧ ∃ names, (emit s time ts).result = .error (.failure (.unresolved names)))
    ∨ (ts ≠ [] ∧ (∀ t ∈ ts, t.specifier ≠ "") ∧ SharesSymbol ts ∧ s.allowDuplicates = false
      ∧ (emit s time ts).result = .error (.failure (.duplicates (duplicates ts))))
    ∨ (ts ≠ [] ∧ (∀ t ∈ ts, t.specifier ≠ "") ∧ (SharesSymbol ts → s.allowDuplicates = true)
      ∧ (emit s time ts).result = .ok ⟨Layout.body s ts, time, ts⟩) := by
  have hresolved : (ts.filter (·.specifier = "")).map (·.symbol) = [] ↔ ∀ t ∈ ts, t.specifier ≠ "" := by
    simp
  unfold emit
  dsimp only
  by_cases hne : ts = []
  · rw [if_pos hne]
    exact .inl ⟨hne, rfl⟩
  rw [if_neg hne]
  by_cases hopen : (ts.filter (·.specifier = "")).map (·.symbol) = []
  · rw [if_neg (not_not.2 hopen)]
    by_cases hrefused : duplicates ts ≠ [] ∧ ¬ s.allowDuplicates
    · rw [if_pos hrefused]
      exact .inr (.inr (.inl ⟨hne, hresolved.1 hopen, sharesSymbol_iff.2 hrefused.1,
        by simpa using hrefused.2, rfl⟩))
    · rw [if_neg hrefused]
      refine .inr (.inr (.inr ⟨hne, hresolved.1 hopen, fun hshared => ?_, ?_⟩))
      · simpa [sharesSymbol_iff.1 hshared] using hrefused
      · split <;> rfl
  · rw [if_pos hopen]
    refine .inr (.inl ⟨hne, ?_, _, rfl⟩)
    simpa using hresolved.not.1 hopen

/-- Emitting refuses shared symbols, and tells each with the modules of all its tables, exactly if there
is something to emit, each specifier is known, and the settings do not allow shared symbols. It fails
otherwise only for want of tables or of a specifier. In all other cases each table is in the group of its
specifier, and in no other. -/
theorem emit_accounts (s : Settings) (time : Timestamp) (ts : List Table) :
    ((∃ ds, (emit s time ts).result = .error (.failure (.duplicates ds)))
      ↔ ts ≠ [] ∧ (∀ t ∈ ts, t.specifier ≠ "") ∧ SharesSymbol ts ∧ s.allowDuplicates = false)
    ∧ (∀ ds, (emit s time ts).result = .error (.failure (.duplicates ds)) →
      Gathers Table.symbol (·.module.text) ts (1 < (ts.map Table.symbol).count ·) ds)
    ∧ ((∃ f : Failure, (emit s time ts).result = .error (.failure f) ∧ f.IsEmission
        ∧ ∀ ds, f ≠ .duplicates ds)
      ↔ ts = [] ∨ ∃ t ∈ ts, t.specifier = "")
    ∧ (ts ≠ [] → (∀ t ∈ ts, t.specifier ≠ "") → (SharesSymbol ts → s.allowDuplicates = true) →
      ∃ a, (emit s time ts).result = .ok a ∧ a.symbols = ts.map Table.symbol
        ∧ groups ts = entered Table.specifier Table.symbol ts
        ∧ (groups ts).map (·.1) = specifiers a.tables
        ∧ Gathers Table.specifier Table.symbol ts (· ∈ ts.map Table.specifier) (groups ts)
        ∧ ((groups ts).flatMap (·.2)).Perm a.symbols) := by
  have hgroups := groups_eq_entered ts ▸ gathers_entered Table.specifier Table.symbol ts
  have hkeys : (groups ts).map (·.1) = specifiers ts := by
    rw [groups, List.map_map]
    exact List.map_id _
  rcases emit_cases s time ts with ⟨rfl, he⟩ | ⟨hne, ⟨t, ht, hempty⟩, names, he⟩
    | ⟨hne, hall, hshared, hallow, he⟩ | ⟨hne, hall, hallowed, he⟩
  · simp [he, Failure.IsEmission]
  · have hnot : ¬ ∀ t ∈ ts, t.specifier ≠ "" := fun h => h t ht hempty
    simp only [he]
    refine ⟨⟨?_, fun h => absurd h.2.1 hnot⟩, ?_, ⟨fun _ => .inr ⟨t, ht, hempty⟩, fun _ => ?_⟩,
      fun _ h => absurd h hnot⟩
    · rintro ⟨_, ⟨⟩⟩
    · rintro _ ⟨⟩
    · refine ⟨_, rfl, trivial, ?_⟩
      rintro _ ⟨⟩
  · have hnot : ¬ (ts = [] ∨ ∃ t ∈ ts, t.specifier = "") := by simpa [hne] using hall
    simp only [he]
    refine ⟨⟨fun _ => ⟨hne, hall, hshared, hallow⟩, fun _ => ⟨_, rfl⟩⟩, ?_, ⟨?_, fun h => absurd h hnot⟩,
      fun _ _ h => absurd (h hshared) (by simp [hallow])⟩
    · rintro _ ⟨⟩
      exact gathers_duplicates ts
    · rintro ⟨_, ⟨⟩, -, h⟩
      exact absurd rfl (h _)
  · have hnot : ¬ (ts = [] ∨ ∃ t ∈ ts, t.specifier = "") := by simpa [hne] using hall
    simp only [he]
    refine ⟨⟨?_, ?_⟩, ?_, ⟨?_, fun h => absurd h hnot⟩, fun _ _ _ => ?_⟩
    · rintro ⟨_, ⟨⟩⟩
    · rintro ⟨-, -, hshared, hallow⟩
      exact absurd (hallowed hshared) (by simp [hallow])
    · rintro _ ⟨⟩
    · rintro ⟨_, ⟨⟩, -⟩
    · exact ⟨_, rfl, rfl, groups_eq_entered ts, hkeys, hgroups, symbols_groups_perm ts⟩

/-- Tables of two modules that take turns, the last one with a symbol to choose. -/
def turnTables (last : String) : List Table :=
  [⟨"users", ⟨.slash, ["a", "m.ts"]⟩, "./m"⟩, ⟨"posts", ⟨.slash, ["a", "n.ts"]⟩, "./n"⟩,
    ⟨"tags", ⟨.slash, ["a", "m.ts"]⟩, "./m"⟩, ⟨last, ⟨.slash, ["a", "n.ts"]⟩, "./n"⟩]

/-- Tables of modules that take turns are put together by module, and a symbol of two modules is told
with both. -/
theorem emit_accounts_turns :
    (∃ a, (emit (namedSettings "dbSchema") headerTime (turnTables "roles")).result = .ok a
      ∧ ((groups (turnTables "roles")).flatMap (·.2)).Perm a.symbols)
    ∧ groups (turnTables "roles") = [("./m", ["users", "tags"]), ("./n", ["posts", "roles"])]
    ∧ ∃ ds, (emit (namedSettings "dbSchema") headerTime (turnTables "users")).result
        = .error (.failure (.duplicates ds))
      ∧ Gathers Table.symbol (·.module.text) (turnTables "users")
        (1 < ((turnTables "users").map Table.symbol).count ·) ds := by
  have hresolved : ∀ last, ∀ t ∈ turnTables last, t.specifier ≠ "" := by simp [turnTables]
  obtain ⟨-, -, -, hmade⟩ := emit_accounts (namedSettings "dbSchema") headerTime (turnTables "roles")
  obtain ⟨hrefused, hds, -, -⟩ := emit_accounts (namedSettings "dbSchema") headerTime (turnTables "users")
  have hapart : ¬ SharesSymbol (turnTables "roles") := by
    rw [sharesSymbol_iff]
    decide
  obtain ⟨a, ha, -, -, -, -, hperm⟩ := hmade nofun (hresolved _) fun h => absurd h hapart
  obtain ⟨ds, h⟩ := hrefused.2 ⟨nofun, hresolved _, ⟨0, 3, by decide, by decide, rfl⟩, rfl⟩
  exact ⟨⟨a, ha, hperm⟩, by decide, ds, h, hds ds h⟩

end Aggregate

end TableRoster
