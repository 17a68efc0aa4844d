import SlotSafe.Document
import SlotSafe.Proofs.LexedBlocks
import SlotSafe.Yaml.Node

/-!
# Tokens as nodes

The tokens of a document of texts are read as nodes that stand for it (`Represents`). The nodes are
numbered as they begin, so the parts of a list or map have greater numbers than the list or map
itself, and reading only adds nodes: what is known before stays as it was (`Leaves`).

That is what makes the statement about one document compose (`ParsesAs`). Whatever nodes are known
when its tokens are met, the document is read as the next number, and the nodes it consists of are
still the same after all that is read later. Where a list is no block of its own, it ends at the
first token that is no sign of an item, so a statement about it has to exclude that sign.
-/

namespace SlotSafe.Yaml

/-! ## Nodes that stand for a document -/

/-- Nodes stay what they are, from a number on. -/
def KeptFrom (least : Nat) (nodes nodes' : Nodes) : Prop :=
  ∀ (n : Nat) (node : Node), least ≤ n → nodes[n]? = some node → nodes'[n]? = some node

theorem KeptFrom.trans {m : Nat} {a b c : Nodes} (h : KeptFrom m a b) (h' : KeptFrom m b c) :
    KeptFrom m a c := fun n node hn hnode => h' n node hn (h n node hn hnode)

theorem KeptFrom.mono {m n : Nat} {a b : Nodes} (h : KeptFrom m a b) (hmn : m ≤ n) :
    KeptFrom n a b := fun k node hk => h k node (Nat.le_trans hmn hk)

theorem keptFrom_push (nodes : Nodes) (node : Node) : KeptFrom 0 nodes (nodes.push node) := by
  intro n node' _ hnode
  have hlt := (Array.getElem?_eq_some_iff.mp hnode).1
  rw [Array.getElem?_eq_getElem hlt] at hnode
  rw [Array.getElem?_push_lt hlt]
  exact hnode

/-- **The node of a number stands for a document of texts**, its parts having greater numbers. No
name stands twice in a map. -/
inductive Represents (nodes : Nodes) : Nat → Document → Prop
  | text {n : Nat} {s : String} (node : nodes[n]? = some ⟨some .text, .scalar s⟩) :
    Represents nodes n (.text s)
  | row {n : Nat} {parts : List (Nat × Document)}
    (node : nodes[n]? = some ⟨some .list, .list (parts.map (·.1))⟩)
    (later : ∀ part ∈ parts, n < part.1)
    (represent : ∀ part ∈ parts, Represents nodes part.1 part.2) :
    Represents nodes n (.row (parts.map (·.2)))
  | record {n : Nat} {parts : List ((Nat × Nat) × (String × Document))}
    (node : nodes[n]? = some ⟨some .map, .map (parts.map (·.1))⟩)
    (names : (parts.map (·.2.1)).Nodup) (later : ∀ part ∈ parts, n < part.1.1 ∧ n < part.1.2)
    (keys : ∀ part ∈ parts, nodes[part.1.1]? = some ⟨some .text, .scalar part.2.1⟩)
    (represent : ∀ part ∈ parts, Represents nodes part.1.2 part.2.2) :
    Represents nodes n (.record (parts.map (·.2)))

/-- Nodes stand for a document as long as they are kept. -/
theorem Represents.kept {nodes nodes' : Nodes} {least n : Nat} {d : Document}
    (h : Represents nodes n d) (hleast : least ≤ n) (hkept : KeptFrom least nodes nodes') :
    Represents nodes' n d := by
  induction h with
  | text node => exact .text (hkept _ _ hleast node)
  | row node later _ ih =>
    exact .row (hkept _ _ hleast node) later fun part hpart =>
      ih part hpart (Nat.le_trans hleast (Nat.le_of_lt (later part hpart)))
  | record node names later keys _ ih =>
    refine .record (hkept _ _ hleast node) names later (fun part hpart => ?_) fun part hpart => ?_
    · exact hkept _ _ (Nat.le_trans hleast (Nat.le_of_lt (later part hpart).1)) (keys part hpart)
    · exact ih part hpart (Nat.le_trans hleast (Nat.le_of_lt (later part hpart).2))

/-! ## What reading leaves -/

/-- **What is left after something has been read**: the tokens behind it, at the same depth, and all
nodes that were known. -/
structure Leaves (r r' : Remaining) (rest : List Token) : Prop where
  tokens : r'.tokens = rest
  depth : r'.depth = r.depth
  size : r.nodes.size ≤ r'.nodes.size
  kept : KeptFrom 0 r.nodes r'.nodes

theorem Leaves.trans {r r' r'' : Remaining} {rest rest' : List Token} (h : Leaves r r' rest)
    (h' : Leaves r' r'' rest') : Leaves r r'' rest' where
  tokens := h'.tokens
  depth := h'.depth.trans h.depth
  size := Nat.le_trans h.size h'.size
  kept := h.kept.trans h'.kept

/-- The next token need not have been passed before. -/
theorem Leaves.of_pass {r r' : Remaining} {rest : List Token} (h : Leaves r.pass r' rest) :
    Leaves r r' rest := ⟨h.tokens, h.depth, h.size, h.kept⟩

theorem leaves_enter (r : Remaining) (node : Node) :
    Leaves r (r.pass.enter none node).2 r.tokens.tail where
  tokens := rfl
  depth := rfl
  size := by simp [Remaining.enter, Remaining.pass]
  kept := keptFrom_push r.nodes node

/-- A list or map that has been begun. -/
def begun (r : Remaining) (kind : Kind) (content : Content) : Remaining :=
  (r.enter none ⟨some kind, content⟩).2.descend

/-- **A list or map is complete when its parts have been read**, and they are what they were. -/
theorem Leaves.complete {r r' : Remaining} {rest : List Token} {kind : Kind} {content : Content}
    (h : Leaves (begun r kind content) r' rest) (content' : Content) :
    Leaves r (r'.complete r.nodes.size content') rest
      ∧ (r'.complete r.nodes.size content').nodes[r.nodes.size]? = some ⟨some kind, content'⟩
      ∧ KeptFrom (r.nodes.size + 1) r'.nodes (r'.complete r.nodes.size content').nodes := by
  have hbegun : (begun r kind content).nodes = r.nodes.push ⟨some kind, content⟩ := rfl
  have hnode : r'.nodes[r.nodes.size]? = some ⟨some kind, content⟩ :=
    h.kept _ _ (Nat.zero_le _) (by rw [hbegun]; simp)
  have hfill : ∀ n, (r'.complete r.nodes.size content').nodes[n]?
      = if r.nodes.size = n then (r'.nodes[n]?).map fun node => { node with content := content' }
        else r'.nodes[n]? := by
    intro n
    show (r'.nodes.modify r.nodes.size fun node => { node with content := content' })[n]? = _
    rw [Array.getElem?_modify]
  refine ⟨⟨h.tokens, ?_, ?_, ?_⟩, ?_, ?_⟩
  · show r'.depth - 1 = r.depth
    rw [h.depth]
    rfl
  · have hsize := h.size
    rw [hbegun, Array.size_push] at hsize
    show r.nodes.size ≤ (r'.nodes.modify _ _).size
    rw [Array.size_modify]
    omega
  · intro n node _ hn
    have hlt := (Array.getElem?_eq_some_iff.mp hn).1
    rw [hfill, if_neg (Nat.ne_of_gt hlt)]
    exact h.kept n node (Nat.zero_le _) (keptFrom_push _ _ n node (Nat.zero_le _) hn)
  · rw [hfill, if_pos rfl, hnode]
    rfl
  · intro n node hn hnode'
    rw [hfill, if_neg (by omega)]
    exact hnode'

/-! ## Reading one document -/

/-- Whether a token starts the content of a node, wherever the node stands. -/
def Token.startsNode : Token → Bool
  | .scalar _ _ => true
  | .flowSequenceStart => true
  | .flowMappingStart => true
  | .blockSequenceStart => true
  | .blockMappingStart => true
  | _ => false

/-- Whether a token starts the content of a node in a context: in an entry a list may start with its
first item. -/
def Token.StartsIn (context : Context) (t : Token) : Prop :=
  t.startsNode = true ∨ (context = .entry ∧ t = .blockEntry)

variable {handles : Handles} {context : Context} {height : Nat} {r : Remaining} {t : Token}
  {rest tokens : List Token} {d : Document}

theorem Token.StartsIn.mustGoOn (ht : t.StartsIn context) (hr : r.tokens = t :: rest) :
    r.mustGoOn = .ok () := by
  unfold Remaining.mustGoOn
  rw [hr]
  split
  · next heq =>
    obtain ⟨rfl, -⟩ := List.cons.inj heq
    obtain ht | ⟨-, ht⟩ := ht
    · exact absurd ht Bool.false_ne_true
    · cases ht
  · rfl

theorem Token.StartsIn.properties (ht : t.StartsIn context) :
    Properties.take handles (t :: rest) = .ok ({}, t :: rest) := by
  obtain ht | ⟨-, rfl⟩ := ht
  · cases t
    all_goals first
      | rfl
      | exact absurd ht Bool.false_ne_true
  · rfl

/-- **Tokens are read as a document in a context**, whatever is known before and follows after. -/
structure ParsesAs [NestingLimits] (context : Context) (height : Nat) (tokens : List Token)
    (d : Document) : Prop where
  starts : ∃ t rest, tokens = t :: rest ∧ t.StartsIn context
  reads : ∀ (handles : Handles) (fuel : Nat) (r : Remaining) (rest : List Token),
    r.tokens = tokens ++ rest → (context = .entry → rest.head? ≠ some .blockEntry) →
    r.depth + height < NestingLimits.reading .yaml → 4 * tokens.length ≤ fuel →
    ∃ r', readNode handles fuel context r = .ok (r.nodes.size, r') ∧ Leaves r r' rest
      ∧ r.nodes.size < r'.nodes.size ∧ Represents r'.nodes r.nodes.size d

/-- Without anchor and tag a node is read by its content. -/
theorem readNode_of_startsIn [NestingLimits] (ht : t.StartsIn context) (hr : r.tokens = t :: rest)
    (hdepth : r.depth < NestingLimits.reading .yaml) (fuel : Nat) :
    readNode handles (fuel + 1) context r = readContent handles fuel context {} r := by
  have hleave : r.leave (t :: rest) = r := by rw [← hr]; rfl
  rw [readNode, if_neg (Nat.not_le.mpr hdepth)]
  split
  · next heq =>
    rw [hr] at heq
    obtain ⟨rfl, -⟩ := List.cons.inj heq
    obtain ht | ⟨-, ht⟩ := ht
    · exact absurd ht Bool.false_ne_true
    · cases ht
  · rw [hr, ht.properties]
    simp only [bind, Except.bind, hleave, ht.mustGoOn hr, Remaining.checkAnchor]

/-! ## Texts -/

theorem scalarKind_textToken {s : String} (hs : IsPrintable s) :
    Properties.scalarKind {} s (decide (QuoteStyle.of s.toList = .bare)) = some .text := by
  obtain ⟨hstyle, hkind, -⟩ | hstyle := quoteStyle_of_isPrintable hs
  · rw [hstyle]
    show some (Kind.ofScalar s.toList) = _
    rw [hkind]
  · rw [hstyle]
    rfl

/-- **A text is read as a text**: without quotes its form is that of no other scalar. -/
theorem parsesAs_text [NestingLimits] {s : String} (hs : IsPrintable s) (context : Context)
    (height : Nat) :
    ParsesAs context height [textToken s] (.text s) where
  starts := ⟨_, [], rfl, .inl rfl⟩
  reads handles fuel r rest hr _ hdepth hfuel := by
    obtain ⟨fuel, rfl⟩ : ∃ n, fuel = n + 2 := ⟨fuel - 2, by simp at hfuel; omega⟩
    have hr' : r.tokens = .scalar s (decide (QuoteStyle.of s.toList = .bare)) :: rest := hr
    rw [readNode_of_startsIn (.inl rfl) hr' (by omega), readContent, hr']
    simp only [scalarKind_textToken hs]
    have hleaves := leaves_enter r ⟨some .text, .scalar s⟩
    rw [hr', List.tail_cons] at hleaves
    refine ⟨_, rfl, hleaves, ?_, .text ?_⟩
    · simp [Remaining.pass]
    · simp [Remaining.pass]

/-! ## Lists -/

theorem lt_size_begun (r : Remaining) (kind : Kind) (content : Content) :
    r.nodes.size < (begun r kind content).nodes.size := by
  simp [begun, Remaining.descend, Remaining.enter]

/-- A list stands for its items when they have been read. -/
theorem Leaves.represents_row {r' : Remaining} {parts : List (Nat × Document)}
    (h : Leaves (begun r .list (.list [])) r' rest)
    (hparts : ∀ part ∈ parts, r.nodes.size < part.1 ∧ Represents r'.nodes part.1 part.2) :
    Leaves r (r'.complete r.nodes.size (.list (parts.map (·.1)))) rest
      ∧ r.nodes.size < (r'.complete r.nodes.size (.list (parts.map (·.1)))).nodes.size
      ∧ Represents (r'.complete r.nodes.size (.list (parts.map (·.1)))).nodes r.nodes.size
        (.row (parts.map (·.2))) := by
  obtain ⟨hleaves, hnode, hkept⟩ := h.complete (.list (parts.map (·.1)))
  refine ⟨hleaves, (Array.getElem?_eq_some_iff.mp hnode).1,
    .row hnode (fun part hpart => (hparts part hpart).1) fun part hpart => ?_⟩
  exact (hparts part hpart).2.kept (hparts part hpart).1 hkept

/-- Between the start and the end of what is empty, and behind the end. -/
theorem leaves_begun_pass (kind : Kind) (content : Content) {start finish : Token}
    (hr : r.tokens = start :: finish :: rest) :
    (begun r.pass kind content).tokens = finish :: rest
      ∧ Leaves (begun r kind content) (begun r.pass kind content).pass rest := by
  have htokens : (begun r.pass kind content).tokens = finish :: rest := by
    show r.tokens.tail = _
    rw [hr, List.tail_cons]
  refine ⟨htokens, ?_, rfl, Nat.le_refl _, fun _ _ _ h => h⟩
  show (begun r.pass kind content).tokens.tail = rest
  rw [htokens, List.tail_cons]

/-- A list that is empty stands between brackets. -/
theorem parsesAs_emptyList [NestingLimits] (context : Context) (height : Nat) :
    ParsesAs context height [.flowSequenceStart, .flowSequenceEnd] (.row []) where
  starts := ⟨_, _, rfl, .inl rfl⟩
  reads handles fuel r rest hr _ hdepth hfuel := by
    obtain ⟨fuel, rfl⟩ : ∃ n, fuel = n + 3 := ⟨fuel - 3, by simp at hfuel; omega⟩
    have hr' : r.tokens = .flowSequenceStart :: .flowSequenceEnd :: rest := hr
    obtain ⟨htokens, hleaves⟩ := leaves_begun_pass .list (.list []) hr'
    have hflow : readFlowItems handles (fuel + 1) true (begun r.pass .list (.list []))
        = .ok ([], (begun r.pass .list (.list [])).pass) := by rw [readFlowItems, htokens]
    refine ⟨_, ?_, hleaves.represents_row (List.forall_mem_nil _)⟩
    rw [readNode_of_startsIn (.inl rfl) hr' (by omega), readContent, hr']
    show (readFlowItems handles (fuel + 1) true (begun r.pass .list (.list [])) >>= _) = _
    rw [hflow]
    rfl

theorem readUnless_present [NestingLimits] (handles : Handles) (fuel : Nat) (context : Context)
    (r : Remaining) :
    readUnless handles (fuel + 1) context false r = readNode handles fuel context r := by
  rw [readUnless, if_neg Bool.false_ne_true]

theorem emptyItem_of_startsNode (ht : t.startsNode = true) (rest : List Token) :
    emptyItem (t :: rest) = false := by
  cases t
  all_goals first
    | rfl
    | exact absurd ht Bool.false_ne_true

theorem emptyPart_of_startsIn (ht : t.StartsIn context) (rest : List Token) :
    emptyPart (t :: rest) = false := by
  obtain ht | ⟨-, rfl⟩ := ht
  · cases t
    all_goals first
      | rfl
      | exact absurd ht Bool.false_ne_true
  · rfl

/-- A function that reads items one by one, up to what it stops at. -/
structure ReadsItems [NestingLimits] (handles : Handles)
    (f : Nat → Remaining → Except ReadError (List Nat × Remaining))
    (ending rest : List Token) : Prop where
  item : ∀ fuel (r : Remaining) t others, r.tokens = .blockEntry :: t :: others →
    t.startsNode = true → f (fuel + 2) r = (do
      let (item, r) ← readNode handles fuel .block r.pass
      let (items, r) ← f (fuel + 1) r
      .ok (item :: items, r))
  last : ∀ fuel (r : Remaining), r.tokens = ending ++ rest → f (fuel + 1) r = .ok ([], r.leave rest)

theorem readsItems_block [NestingLimits] (handles : Handles) (rest : List Token) :
    ReadsItems handles (readItems handles) [.blockEnd] rest where
  item fuel r t others hr ht := by
    rw [readItems, hr]
    simp only [emptyItem_of_startsNode ht, readUnless_present]
  last fuel r hr := by
    have hr' : r.tokens = .blockEnd :: rest := hr
    rw [readItems, hr']
    simp only [Remaining.pass, Remaining.leave, hr', List.tail_cons]

theorem readsItems_flat [NestingLimits] (handles : Handles)
    (hrest : rest.head? ≠ some .blockEntry) :
    ReadsItems handles (readFlatItems handles) [] rest where
  item fuel r t others hr ht := by
    rw [readFlatItems, hr]
    simp only [emptyItem_of_startsNode ht, emptyPart_of_startsIn (.inl ht : t.StartsIn .block),
      Bool.or_false, readUnless_present]
  last fuel r hr := by
    have hr' : r.tokens = rest := hr
    rw [readFlatItems]
    split
    · next heq =>
      rw [hr'] at heq
      rw [heq] at hrest
      exact absurd rfl hrest
    · rw [← hr']
      rfl

/-- **Items are read one after the other.** -/
theorem exists_items [NestingLimits] {f : Nat → Remaining → Except ReadError (List Nat × Remaining)}
    {ending : List Token} (hf : ReadsItems handles f ending rest)
    {items : List (List Token × Document)}
    (h : ∀ item ∈ items, ParsesAs .block height item.1 item.2) (fuel : Nat) (r : Remaining)
    (hr : r.tokens = Lexer.itemTokens (items.map (·.1)) ++ (ending ++ rest))
    (hdepth : r.depth + height < NestingLimits.reading .yaml)
    (hfuel : 4 * (Lexer.itemTokens (items.map (·.1))).length ≤ fuel + 2) (hpos : 0 < fuel) :
    ∃ (parts : List (Nat × Document)) (r' : Remaining), parts.map (·.2) = items.map (·.2)
      ∧ f fuel r = .ok (parts.map (·.1), r') ∧ Leaves r r' rest
      ∧ ∀ part ∈ parts, r.nodes.size ≤ part.1 ∧ Represents r'.nodes part.1 part.2 := by
  induction items generalizing fuel r with
  | nil =>
    obtain ⟨fuel, rfl⟩ := Nat.exists_eq_succ_of_ne_zero (Nat.ne_of_gt hpos)
    exact ⟨[], r.leave rest, rfl, hf.last fuel r hr, ⟨rfl, rfl, Nat.le_refl _, fun _ _ _ h => h⟩,
      List.forall_mem_nil _⟩
  | cons item items ih =>
    rw [List.forall_mem_cons] at h
    obtain ⟨t, others, htokens, ht⟩ := h.1.starts
    have ht' : t.startsNode = true := ht.resolve_right fun h => nomatch h.1
    have hcons : Lexer.itemTokens ((item :: items).map (·.1))
        = .blockEntry :: (item.1 ++ Lexer.itemTokens (items.map (·.1))) := rfl
    rw [hcons, List.cons_append, List.append_assoc] at hr
    rw [hcons, List.length_cons, List.length_append] at hfuel
    -- of the four units of fuel for the sign, the item can do without two and the rest without one
    obtain ⟨fuel, rfl⟩ : ∃ n, fuel = n + 2 := ⟨fuel - 2, by omega⟩
    obtain ⟨r₁, hread₁, hleaves₁, hsize₁, hrepresents₁⟩ := h.1.reads handles fuel r.pass _
      (by rw [Remaining.pass, hr, List.tail_cons]) (fun h => nomatch h) hdepth (by omega)
    obtain ⟨parts, r₂, hparts, hread₂, hleaves₂, hrepresents₂⟩ := ih h.2 (fuel + 1) r₁
      hleaves₁.tokens (by rw [hleaves₁.depth]; exact hdepth) (by omega) (by omega)
    have hpass := hleaves₁.of_pass
    refine ⟨(r.nodes.size, item.2) :: parts, r₂, by rw [List.map_cons, List.map_cons, hparts], ?_,
      hpass.trans hleaves₂, ?_⟩
    · rw [htokens, List.cons_append] at hr
      rw [hf.item fuel r t _ hr ht', hread₁]
      simp only [bind, Except.bind, hread₂]
      rfl
    · refine List.forall_mem_cons.mpr ⟨⟨Nat.le_refl _, ?_⟩, fun part hpart => ?_⟩
      · exact hrepresents₁.kept (Nat.zero_le _) hleaves₂.kept
      · obtain ⟨hle, hrepresents⟩ := hrepresents₂ part hpart
        exact ⟨Nat.le_trans hpass.size hle, hrepresents⟩

section

variable {items : List (List Token × Document)}

variable [NestingLimits]

/-- The items of a list that has been begun, and the list. -/
theorem exists_list {f : Nat → Remaining → Except ReadError (List Nat × Remaining)}
    {ending : List Token} (hf : ReadsItems handles f ending rest)
    (h : ∀ item ∈ items, ParsesAs .block height item.1 item.2) (fuel : Nat) (r : Remaining)
    (hr : r.tokens = Lexer.itemTokens (items.map (·.1)) ++ (ending ++ rest))
    (hdepth : r.depth + (height + 1) < NestingLimits.reading .yaml)
    (hfuel : 4 * (Lexer.itemTokens (items.map (·.1))).length ≤ fuel + 2) (hpos : 0 < fuel) :
    ∃ numbers r', f fuel (begun r .list (.list [])) = .ok (numbers, r')
      ∧ Leaves r (r'.complete r.nodes.size (.list numbers)) rest
      ∧ r.nodes.size < (r'.complete r.nodes.size (.list numbers)).nodes.size
      ∧ Represents (r'.complete r.nodes.size (.list numbers)).nodes r.nodes.size
        (.row (items.map (·.2))) := by
  obtain ⟨parts, r', hparts, hread, hleaves, hrepresents⟩ := exists_items hf h fuel
    (begun r .list (.list [])) hr
    (show r.depth + 1 + height < NestingLimits.reading .yaml by omega) hfuel hpos
  have hrow := hleaves.represents_row fun part hpart =>
    ⟨Nat.lt_of_lt_of_le (lt_size_begun r _ _) (hrepresents part hpart).1,
      (hrepresents part hpart).2⟩
  rw [hparts] at hrow
  exact ⟨_, r', hread, hrow⟩

/-- **A list with a start and an end.** -/
theorem parsesAs_list (hcontext : context ≠ .flow)
    (h : ∀ item ∈ items, ParsesAs .block height item.1 item.2) :
    ParsesAs context (height + 1)
      (.blockSequenceStart :: (Lexer.itemTokens (items.map (·.1)) ++ [.blockEnd]))
      (.row (items.map (·.2))) where
  starts := ⟨_, _, rfl, .inl rfl⟩
  reads handles fuel r rest hr _ hdepth hfuel := by
    rw [List.cons_append, List.append_assoc] at hr
    rw [List.length_cons, List.length_append, List.length_singleton] at hfuel
    obtain ⟨fuel, rfl⟩ : ∃ n, fuel = n + 2 := ⟨fuel - 2, by omega⟩
    obtain ⟨numbers, r', hread, hleaves, hrow⟩ := exists_list (readsItems_block handles rest) h fuel
      r.pass (show r.tokens.tail = _ by rw [hr, List.tail_cons]) hdepth (by omega)
      (by omega)
    refine ⟨_, ?_, hleaves.of_pass, hrow⟩
    rw [readNode_of_startsIn (.inl rfl) hr (by omega), readContent, hr]
    simp only [hcontext, if_false]
    show (readItems handles fuel (begun r.pass .list (.list [])) >>= _) = _
    rw [hread]
    rfl

/-- **A list that is no block of its own** ends where no item follows. -/
theorem parsesAs_flatList (hne : items ≠ [])
    (h : ∀ item ∈ items, ParsesAs .block height item.1 item.2) :
    ParsesAs .entry (height + 1) (Lexer.itemTokens (items.map (·.1))) (.row (items.map (·.2))) := by
  obtain ⟨item, items, rfl⟩ := List.exists_cons_of_ne_nil hne
  refine ⟨⟨_, _, rfl, .inr ⟨rfl, rfl⟩⟩, fun handles fuel r rest hr hrest hdepth hfuel => ?_⟩
  -- no token starts the list, so it is begun where the sign of its first item stands
  have hpos : 0 < (Lexer.itemTokens ((item :: items).map (·.1))).length := Nat.succ_pos _
  obtain ⟨fuel, rfl⟩ : ∃ n, fuel = n + 2 := ⟨fuel - 2, by omega⟩
  obtain ⟨numbers, r', hread, hleaves, hrow⟩ := exists_list
    (readsItems_flat handles (hrest rfl)) h fuel r hr hdepth hfuel (by omega)
  refine ⟨_, ?_, hleaves, hrow⟩
  have hr' : r.tokens = .blockEntry :: _ := hr
  rw [readNode_of_startsIn (.inr ⟨rfl, rfl⟩) hr' (by omega), readContent, hr']
  simp only [if_true]
  show (readFlatItems handles fuel (begun r .list (.list [])) >>= _) = _
  rw [hread]
  rfl

end

/-! ## Maps -/

/-- A map stands for its entries when they have been read. -/
theorem Leaves.represents_record {r' : Remaining} (h : Leaves (begun r .map (.map [])) r' rest)
    (parts : List ((Nat × Nat) × (String × Document))) (hnames : (parts.map (·.2.1)).Nodup)
    (hparts : ∀ part ∈ parts, (r.nodes.size < part.1.1 ∧ r.nodes.size < part.1.2)
      ∧ r'.nodes[part.1.1]? = some ⟨some .text, .scalar part.2.1⟩
      ∧ Represents r'.nodes part.1.2 part.2.2) :
    Leaves r (r'.complete r.nodes.size (.map (parts.map (·.1)))) rest
      ∧ r.nodes.size < (r'.complete r.nodes.size (.map (parts.map (·.1)))).nodes.size
      ∧ Represents (r'.complete r.nodes.size (.map (parts.map (·.1)))).nodes r.nodes.size
        (.record (parts.map (·.2))) := by
  obtain ⟨hleaves, hnode, hkept⟩ := h.complete (.map (parts.map (·.1)))
  refine ⟨hleaves, (Array.getElem?_eq_some_iff.mp hnode).1,
    .record hnode hnames (fun part hpart => (hparts part hpart).1) (fun part hpart => ?_)
      fun part hpart => ?_⟩
  · exact hkept _ _ (hparts part hpart).1.1 (hparts part hpart).2.1
  · exact (hparts part hpart).2.2.kept (hparts part hpart).1.2 hkept

/-- A map that is empty stands between braces. -/
theorem parsesAs_emptyMap [NestingLimits] (context : Context) (height : Nat) :
    ParsesAs context height [.flowMappingStart, .flowMappingEnd] (.record []) where
  starts := ⟨_, _, rfl, .inl rfl⟩
  reads handles fuel r rest hr _ hdepth hfuel := by
    obtain ⟨fuel, rfl⟩ : ∃ n, fuel = n + 3 := ⟨fuel - 3, by simp at hfuel; omega⟩
    have hr' : r.tokens = .flowMappingStart :: .flowMappingEnd :: rest := hr
    obtain ⟨htokens, hleaves⟩ := leaves_begun_pass .map (.map []) hr'
    have hflow : readFlowEntries handles (fuel + 1) true (begun r.pass .map (.map []))
        = .ok ([], (begun r.pass .map (.map [])).pass) := by rw [readFlowEntries, htokens]
    refine ⟨_, ?_, hleaves.represents_record [] List.nodup_nil (List.forall_mem_nil _)⟩
    rw [readNode_of_startsIn (.inl rfl) hr' (by omega), readContent, hr']
    show (readFlowEntries handles (fuel + 1) true (begun r.pass .map (.map [])) >>= _) = _
    rw [hflow]
    rfl

/-- The tokens of entries of a map, given the tokens of their values. -/
def entryTokens (entries : List (List Token × (String × Document))) : List Token :=
  entries.flatMap fun entry => .key :: textToken entry.2.1 :: .value :: entry.1

/-- No item follows an entry. -/
theorem head?_entryTokens_ne (entries : List (List Token × (String × Document)))
    (rest : List Token) : (entryTokens entries ++ .blockEnd :: rest).head? ≠ some .blockEntry := by
  cases entries
  · exact fun h => nomatch Option.some.inj h
  · exact fun h => nomatch Option.some.inj h

variable [NestingLimits]

/-- One entry, both its key and its value being given. -/
theorem readEntries_cons (hr : r.tokens = .key :: t :: tokens) (ht : t.startsNode = true)
    {fuel number number' : Nat} {r₁ r₂ : Remaining} {t' : Token} {tokens' : List Token}
    (hkey : readNode handles fuel .entry r.pass = .ok (number, r₁))
    (hr₁ : r₁.tokens = .value :: t' :: tokens') (ht' : t'.StartsIn .entry)
    (hvalue : readNode handles (fuel - 1) .entry r₁.pass = .ok (number', r₂)) (hpos : 1 < fuel) :
    readEntries handles (fuel + 2) r = (do
      let (entries, r) ← readEntries handles (fuel + 1) r₂
      .ok ((number, number') :: entries, r)) := by
  obtain ⟨fuel, rfl⟩ : ∃ n, fuel = n + 2 := ⟨fuel - 2, by omega⟩
  rw [readEntries, hr]
  simp only [emptyPart_of_startsIn (.inl ht : t.StartsIn .entry), readUnless_present, hkey]
  simp only [bind, Except.bind]
  rw [readValue, hr₁]
  simp only [emptyPart_of_startsIn ht', readUnless_present]
  rw [show fuel + 2 - 1 = fuel + 1 from rfl] at hvalue
  rw [hvalue]

section

variable {entries : List (List Token × (String × Document))}

/-- **Entries are read one after the other.** -/
theorem exists_entries (handles : Handles)
    (h : ∀ entry ∈ entries, IsPrintable entry.2.1 ∧ ParsesAs .entry height entry.1 entry.2.2)
    (fuel : Nat) (r : Remaining) (hr : r.tokens = entryTokens entries ++ .blockEnd :: rest)
    (hdepth : r.depth + height < NestingLimits.reading .yaml)
    (hfuel : 4 * (entryTokens entries).length ≤ fuel + 2) (hpos : 0 < fuel) :
    ∃ (parts : List ((Nat × Nat) × (String × Document))) (r' : Remaining),
      parts.map (·.2) = entries.map (·.2)
      ∧ readEntries handles fuel r = .ok (parts.map (·.1), r') ∧ Leaves r r' rest
      ∧ ∀ part ∈ parts, (r.nodes.size ≤ part.1.1 ∧ r.nodes.size ≤ part.1.2)
        ∧ r'.nodes[part.1.1]? = some ⟨some .text, .scalar part.2.1⟩
        ∧ Represents r'.nodes part.1.2 part.2.2 := by
  induction entries generalizing fuel r with
  | nil =>
    obtain ⟨fuel, rfl⟩ := Nat.exists_eq_succ_of_ne_zero (Nat.ne_of_gt hpos)
    have hr' : r.tokens = .blockEnd :: rest := hr
    refine ⟨[], r.leave rest, rfl, ?_, ⟨rfl, rfl, Nat.le_refl _, fun _ _ _ h => h⟩,
      List.forall_mem_nil _⟩
    rw [readEntries, hr']
    simp only [Remaining.pass, Remaining.leave, hr', List.tail_cons]
    rfl
  | cons entry entries ih =>
    rw [List.forall_mem_cons] at h
    obtain ⟨t, others, htokens, ht⟩ := h.1.2.starts
    have hcons : entryTokens (entry :: entries)
        = .key :: textToken entry.2.1 :: .value :: (entry.1 ++ entryTokens entries) := rfl
    rw [hcons] at hr hfuel
    simp only [List.cons_append, List.append_assoc] at hr
    simp only [List.length_cons, List.length_append] at hfuel
    obtain ⟨fuel, rfl⟩ : ∃ n, fuel = n + 2 := ⟨fuel - 2, by omega⟩
    -- the key, the value behind it, and the entries after both
    obtain ⟨r₁, hread₁, hleaves₁, hsize₁, hkey⟩ := (parsesAs_text h.1.1 .entry height).reads handles
      fuel r.pass _ (by rw [Remaining.pass, hr, List.tail_cons]; rfl)
      (fun _ => by simp) hdepth (by rw [List.length_singleton]; omega)
    obtain ⟨r₂, hread₂, hleaves₂, hsize₂, hvalue⟩ := h.1.2.reads handles (fuel - 1) r₁.pass _
      (by rw [Remaining.pass, hleaves₁.tokens, List.tail_cons])
      (fun _ => head?_entryTokens_ne entries rest)
      (by rw [show r₁.pass.depth = r.depth from hleaves₁.depth]; exact hdepth) (by omega)
    have hpass₁ := hleaves₁.of_pass
    have hpass₂ := hleaves₂.of_pass
    have hpass := hpass₁.trans hpass₂
    obtain ⟨parts, r₃, hparts, hread₃, hleaves₃, hrepresent⟩ := ih h.2 (fuel + 1) r₂ hpass.tokens
      (by rw [hpass.depth]; exact hdepth) (by omega) (Nat.succ_pos _)
    refine ⟨((r.nodes.size, r₁.nodes.size), entry.2) :: parts, r₃,
      by rw [List.map_cons, List.map_cons, hparts], ?_, hpass.trans hleaves₃,
      List.forall_mem_cons.mpr ⟨⟨⟨Nat.le_refl _, hpass₁.size⟩, ?_, ?_⟩, fun part hpart => ?_⟩⟩
    · have hr₁ := hleaves₁.tokens
      rw [htokens, List.cons_append] at hr₁
      rw [readEntries_cons hr rfl hread₁ hr₁ ht hread₂ (by omega)]
      simp only [bind, Except.bind, hread₃]
      rfl
    · cases hkey with
      | text node => exact (hpass₂.kept.trans hleaves₃.kept) _ _ (Nat.zero_le _) node
    · exact hvalue.kept (Nat.zero_le _) hleaves₃.kept
    · obtain ⟨⟨hlt, hlt'⟩, hkept⟩ := hrepresent part hpart
      exact ⟨⟨Nat.le_trans hpass.size hlt, Nat.le_trans hpass.size hlt'⟩, hkept⟩

/-- **A map with a start and an end.** -/
theorem parsesAs_map (hcontext : context ≠ .flow) (hnames : (entries.map (·.2.1)).Nodup)
    (h : ∀ entry ∈ entries, IsPrintable entry.2.1 ∧ ParsesAs .entry height entry.1 entry.2.2) :
    ParsesAs context (height + 1) (.blockMappingStart :: (entryTokens entries ++ [.blockEnd]))
      (.record (entries.map (·.2))) where
  starts := ⟨_, _, rfl, .inl rfl⟩
  reads handles fuel r rest hr _ hdepth hfuel := by
    rw [List.cons_append, List.append_assoc] at hr
    rw [List.length_cons, List.length_append, List.length_singleton] at hfuel
    obtain ⟨fuel, rfl⟩ : ∃ n, fuel = n + 2 := ⟨fuel - 2, by omega⟩
    obtain ⟨parts, r', hparts, hread, hleaves, hrepresent⟩ := exists_entries handles h
      fuel (begun r.pass .map (.map [])) (show r.tokens.tail = _ by rw [hr, List.tail_cons]; rfl)
      (show r.depth + 1 + height < NestingLimits.reading .yaml by omega) (by omega) (by omega)
    have hlt := lt_size_begun r.pass .map (.map [])
    have hpartNames : parts.map (·.2.1) = entries.map (·.2.1) := by
      simpa only [List.map_map] using! congrArg (List.map (·.1)) hparts
    have hrecord := hleaves.represents_record parts (hpartNames ▸ hnames) fun part hpart =>
      ⟨⟨Nat.lt_of_lt_of_le hlt (hrepresent part hpart).1.1,
        Nat.lt_of_lt_of_le hlt (hrepresent part hpart).1.2⟩, (hrepresent part hpart).2⟩
    rw [hparts] at hrecord
    obtain ⟨hrecord, hrepresents⟩ := hrecord
    refine ⟨_, ?_, hrecord.of_pass, hrepresents⟩
    rw [readNode_of_startsIn (.inl rfl) hr (by omega), readContent, hr]
    simp only [hcontext, if_false]
    show (readEntries handles fuel (begun r.pass .map (.map [])) >>= _) = _
    rw [hread]
    rfl

end

/-! ## The root -/

/-- **Tokens that are read as a document in a block are a graph whose first node stands for it.** -/
theorem ParsesAs.exists_graph (h : ParsesAs .block height tokens d)
    (hheight : height < NestingLimits.reading .yaml) :
    ∃ nodes, Graph.ofTokens? tokens = .ok (some ⟨nodes, 0⟩) ∧ Represents nodes 0 d := by
  obtain ⟨t, others, htokens, ht⟩ := h.starts
  have ht' : t.startsNode = true := ht.resolve_right fun h => nomatch h.1
  obtain ⟨r', hread, hleaves, -, hrepresents⟩ := h.reads .default (4 * tokens.length + 4)
    ⟨tokens, [], #[], 0⟩ [] (List.append_nil _).symm (fun h => nomatch h)
    (show 0 + height < NestingLimits.reading .yaml by omega) (by omega)
  have hroot : readRoot .default tokens = .ok (⟨r'.nodes, 0⟩, []) := by
    rw [readRoot, hread, ← hleaves.tokens]
    rfl
  refine ⟨r'.nodes, ?_, hrepresents⟩
  have hgraph : Graph.ofTokens? tokens = (do
      let found ← readRoot .default tokens
      checkEnd found.2
      .ok (some found.1)) := by
    rw [htokens]
    cases t
    all_goals first
      | exact absurd ht' Bool.false_ne_true
      | rfl
  rw [hgraph, hroot]
  rfl

end SlotSafe.Yaml
