import SlotSafe.Proofs.JsonRoundTrip
import SlotSafe.Proofs.ParsedNodes
import SlotSafe.Yaml.Value

/-!
# Documents made of nodes

Nodes that stand for a document of texts are made into that document, up to the identities of its
lists and maps (`Represents.exists_document`).

The rounds are followed by what is known between any two steps (`Making.Consistent`): what has been
met stands for a document, and it either has its parts, which have then been met too, or is still to
get them. Parts have greater numbers than what they are parts of, so the numbers of what is to come
grow from round to round, and the rounds end with nothing left.

Putting the document together may use what has been finished before. So what is said of a finished
document is said for everything that its node stands for (`Builds`), and holds wherever the node is
met again.
-/

namespace SlotSafe.Yaml

open Document

/-! ## What nodes stand for -/

namespace Nodes

/-- The text of a node that holds one. -/
def textAt (nodes : Nodes) (n : Nat) : String :=
  match (nodes.node n).content with
  | .scalar s => s
  | _ => ""

/-- What stands for a content whose parts are known, texts being the only scalars and keys. -/
def valueOf (nodes : Nodes) : Content → Value
  | .scalar s => .leaf (.text s)
  | .list items => .list items
  | .map entries => .map (entries.map fun entry => (.text (nodes.textAt entry.1), entry.2))

/-- What a node stands for when its parts are known. -/
def filled (nodes : Nodes) (n : Nat) : Value := nodes.valueOf (nodes.node n).content

theorem node_of_getElem? {nodes : Nodes} {n : Nat} {node : Node} (h : nodes[n]? = some node) :
    nodes.node n = node := by
  rw [Nodes.node, Array.getD_eq_getD_getElem?, h]
  rfl

theorem filled_of_getElem? {nodes : Nodes} {n : Nat} {kind : Option Kind} {content : Content}
    (h : nodes[n]? = some ⟨kind, content⟩) : nodes.filled n = nodes.valueOf content := by
  rw [filled, node_of_getElem? h]

end Nodes

/-- What a list or map stands for before its parts are known. -/
def Value.emptied : Value → Value
  | .list _ => .list []
  | .map _ => .map []
  | value => value

/-- The nodes that are parts of what a node stands for. -/
def Value.parts : Value → List Nat
  | .list items => items
  | .map entries => entries.map (·.2)
  | _ => []

/-- **A node that stands for a document**, by what it holds. -/
inductive NodeForm (nodes : Nodes) (n : Nat) : Prop
  | text (s : String) (node : nodes[n]? = some ⟨some .text, .scalar s⟩)
  | list (items : List Nat) (node : nodes[n]? = some ⟨some .list, .list items⟩)
    (parts : ∀ k ∈ items, n < k ∧ ∃ d, Represents nodes k d)
  | map (entries : List (Nat × Nat)) (node : nodes[n]? = some ⟨some .map, .map entries⟩)
    (names : (entries.map fun entry => nodes.textAt entry.1).Nodup)
    (keys : ∀ entry ∈ entries, ∃ s, nodes[entry.1]? = some ⟨some .text, .scalar s⟩)
    (parts : ∀ entry ∈ entries, n < entry.1 ∧ n < entry.2 ∧ ∃ d, Represents nodes entry.2 d)

variable {nodes : Nodes} {n k : Nat} {d : Document}

theorem textAt_of_getElem? {s : String} (h : nodes[n]? = some ⟨some .text, .scalar s⟩) :
    nodes.textAt n = s := by
  rw [Nodes.textAt, Nodes.node_of_getElem? h]

theorem Represents.form (h : Represents nodes n d) : NodeForm nodes n := by
  cases h with
  | @text _ s node => exact .text s node
  | @row _ parts node later represent =>
    refine .list _ node fun k hk => ?_
    obtain ⟨part, hpart, rfl⟩ := List.mem_map.mp hk
    exact ⟨later part hpart, _, represent part hpart⟩
  | @record _ parts node names later keys represent =>
    refine .map _ node ?_ (fun entry hentry => ?_) fun entry hentry => ?_
    · have hnames : ((parts.map (·.1)).map fun entry => nodes.textAt entry.1)
          = parts.map (·.2.1) := by
        rw [List.map_map]
        exact List.map_congr_left fun part hpart => textAt_of_getElem? (keys part hpart)
      rwa [hnames]
    · obtain ⟨part, hpart, rfl⟩ := List.mem_map.mp hentry
      exact ⟨_, keys part hpart⟩
    · obtain ⟨part, hpart, rfl⟩ := List.mem_map.mp hentry
      exact ⟨(later part hpart).1, (later part hpart).2, _, represent part hpart⟩

/-- A node of a document has a number below that of all nodes. -/
theorem Represents.lt_size (h : Represents nodes n d) : n < nodes.size := by
  cases h with
  | text node => exact (Array.getElem?_eq_some_iff.mp node).1
  | row node => exact (Array.getElem?_eq_some_iff.mp node).1
  | record node => exact (Array.getElem?_eq_some_iff.mp node).1

/-! ## Taking over nothing -/

theorem hasKind_of_text {s : String} (h : nodes[n]? = some ⟨some .text, .scalar s⟩) (kind : Kind)
    (hkind : kind ≠ .text) : nodes.hasKind kind n = false := by
  rw [Nodes.hasKind, Nodes.node_of_getElem? h]
  exact beq_eq_false_iff_ne.mpr fun heq => hkind (Option.some.inj heq).symm

/-- Texts are no merge keys and no signs of a value, so a map of names stays as it is. -/
theorem takeOver_of_texts {entries : List (Nat × Nat)}
    (hnode : nodes[n]? = some ⟨some .map, .map entries⟩)
    (hkeys : ∀ entry ∈ entries, ∃ s, nodes[entry.1]? = some ⟨some .text, .scalar s⟩) :
    nodes.takeOver n = .ok nodes := by
  have hentries : nodes.entries? n = some entries := by
    rw [Nodes.entries?, Nodes.node_of_getElem? hnode]
  have hmerge : nodes.mergeFrom? 0 entries = none := by
    rw [Nodes.mergeFrom?, List.drop_zero, Option.map_eq_none_iff, List.findIdx?_eq_none_iff]
    intro entry hentry
    obtain ⟨s, hs⟩ := hkeys entry hentry
    exact hasKind_of_text hs .merge (by decide)
  have hsettle : entries.foldl Nodes.settleKey nodes = nodes := by
    clear hnode hentries hmerge
    induction entries with
    | nil => rfl
    | cons entry entries ih =>
      rw [List.forall_mem_cons] at hkeys
      obtain ⟨⟨s, hs⟩, hkeys⟩ := hkeys
      have hstays : nodes.settleKey entry = nodes := by
        rw [Nodes.settleKey, hasKind_of_text hs .value (by decide)]
        rfl
      rw [List.foldl_cons, hstays, ih hkeys]
  have hfill : nodes.fill n (.map entries) = nodes := by
    refine Array.ext_getElem? fun i => ?_
    rw [Nodes.fill, Array.getElem?_modify]
    split
    · next heq =>
      rw [← heq, hnode]
      rfl
    · rfl
  rw [Nodes.takeOver, Nodes.takeOverFrom, hentries]
  simp only [Option.getD_some, hmerge, hsettle, List.nil_append, hfill]

/-! ## Meeting nodes -/

namespace Making

/-- Whether a node has been met. -/
def Met (m : Making) (n : Nat) : Prop := (m.value? n).isSome = true

/-- What a node stands for as far as it is known: it has its parts, which have been met, or it is
pending and has none. -/
def IsValueOf (nodes : Nodes) (m : Making) (pending : List Nat) (n : Nat) (value : Value) : Prop :=
  (value = nodes.filled n ∧ ∀ k ∈ value.parts, m.Met k)
    ∨ (n ∈ pending ∧ value = (nodes.filled n).emptied)

/-- **What is known between two steps**, `others` being the nodes that are still to get their parts
in this round. -/
structure Consistent (nodes : Nodes) (others : List Nat) (m : Making) : Prop where
  same : m.nodes = nodes
  size : m.values.size = nodes.size
  stand : ∀ n, m.Met n → ∃ d, Represents nodes n d
  pending : ∀ n ∈ others ++ m.waiting, m.Met n ∧ isScalar nodes n = false
  values : ∀ n value, m.value? n = some value → IsValueOf nodes m (others ++ m.waiting) n value

/-- What steps leave: everything that was known, and of the nodes that are then waiting only those
from a number on are new. -/
structure Extends (least : Nat) (m m' : Making) : Prop where
  met : ∀ n, m.Met n → m'.Met n
  waiting : ∀ n ∈ m'.waiting, n ∈ m.waiting ∨ least ≤ n

variable {m m' m'' : Making} {others : List Nat} {least reading : Nat} {value : Value}

theorem Extends.refl (least : Nat) (m : Making) : m.Extends least m :=
  ⟨fun _ h => h, fun _ h => .inl h⟩

theorem Extends.trans (h : m.Extends least m') (h' : m'.Extends least m'') :
    m.Extends least m'' :=
  ⟨fun n hn => h'.met n (h.met n hn), fun n hn => (h'.waiting n hn).elim (h.waiting n) .inr⟩

theorem value?_note (h : n < m.values.size) (value : Value) (k : Nat) :
    (m.note n value).value? k = if n = k then some value else m.value? k := by
  rw [value?, note, Array.getElem?_setIfInBounds, if_pos h]
  split
  · rfl
  · rfl

/-- **What a node stands for is noted.** Whether any other node is pending stays as it was. -/
theorem Consistent.note {others' waiting : List Nat} (h : Consistent nodes others' m)
    (hn : ∃ d, Represents nodes n d) (hvalue : IsValueOf nodes m (others ++ waiting) n value)
    (hscalar : n ∈ others ++ waiting → isScalar nodes n = false)
    (hpending : ∀ k, k ≠ n → (k ∈ others ++ waiting ↔ k ∈ others' ++ m.waiting)) :
    Consistent nodes others { m.note n value with waiting := waiting }
      ∧ (∀ k, m.Met k → { m.note n value with waiting := waiting }.Met k)
      ∧ { m.note n value with waiting := waiting }.Met n := by
  have hvalue? : ∀ k, { m.note n value with waiting := waiting }.value? k
      = if n = k then some value else m.value? k :=
    value?_note (h.size ▸ hn.elim fun d hd => hd.lt_size) value
  have hmet : { m.note n value with waiting := waiting }.Met n := by
    rw [Met, hvalue?, if_pos rfl]
    rfl
  have hkeeps : ∀ k, m.Met k → { m.note n value with waiting := waiting }.Met k := by
    intro k hk
    obtain rfl | hne := eq_or_ne n k
    · exact hmet
    · rwa [Met, hvalue?, if_neg hne]
  refine ⟨⟨h.same, ?_, fun k hk => ?_, fun k hk => ?_, fun k found hk => ?_⟩, hkeeps, hmet⟩
  · show (m.values.setIfInBounds n _).size = _
    rw [Array.size_setIfInBounds, h.size]
  · obtain rfl | hne := eq_or_ne n k
    · exact hn
    · rw [Met, hvalue?, if_neg hne] at hk
      exact h.stand k hk
  · obtain rfl | hne := eq_or_ne k n
    · exact ⟨hmet, hscalar hk⟩
    · exact (h.pending k ((hpending k hne).mp hk)).imp_left (hkeeps k)
  · obtain rfl | hne := eq_or_ne n k
    · rw [hvalue?, if_pos rfl] at hk
      obtain rfl := Option.some.inj hk
      exact hvalue.imp_left (And.imp_right fun hparts k hk => hkeeps k (hparts k hk))
    · rw [hvalue?, if_neg hne] at hk
      exact (h.values k found hk).imp
        (And.imp_right fun hparts k hk => hkeeps k (hparts k hk))
        (And.imp_left (hpending k hne.symm).mpr)

/-- **A node gets its parts**, and is not waited for. -/
theorem Consistent.note_filled {others' : List Nat} (h : Consistent nodes others' m) (least : Nat)
    (hn : ∃ d, Represents nodes n d) (hparts : ∀ k ∈ (nodes.filled n).parts, m.Met k)
    (hothers : ∀ k ∈ others', k = n ∨ k ∈ others) (hsub : others ⊆ others') :
    Consistent nodes others (m.note n (nodes.filled n))
      ∧ m.Extends least (m.note n (nodes.filled n)) ∧ (m.note n (nodes.filled n)).Met n := by
  have hmem : ∀ k, k ∈ others ++ m.waiting → k ∈ others' ++ m.waiting := fun k hk =>
    List.mem_append.mpr ((List.mem_append.mp hk).imp_left fun hk => hsub hk)
  obtain ⟨hnext, hkeeps, hmet⟩ := h.note hn (.inl ⟨rfl, hparts⟩)
    (fun hk => (h.pending n (hmem n hk)).2) fun k hne => ⟨hmem k, fun hk =>
      List.mem_append.mpr ((List.mem_append.mp hk).imp_left fun hk =>
        (hothers k hk).resolve_left hne)⟩
  exact ⟨hnext, ⟨hkeeps, fun k hk => .inl hk⟩, hmet⟩

/-- **A node is met that is to get its parts.** -/
theorem Consistent.await_emptied (h : Consistent nodes others m) (hn : ∃ d, Represents nodes n d)
    (hscalar : isScalar nodes n = false) (hleast : least ≤ n) :
    Consistent nodes others (m.await n (nodes.filled n).emptied)
      ∧ m.Extends least (m.await n (nodes.filled n).emptied)
      ∧ (m.await n (nodes.filled n).emptied).Met n := by
  have hmem : n ∈ others ++ n :: m.waiting := List.mem_append_right _ List.mem_cons_self
  obtain ⟨hnext, hkeeps, hmet⟩ := h.note hn (.inr ⟨hmem, rfl⟩) (fun _ => hscalar)
    fun k hne => by rw [List.mem_append, List.mem_append, List.mem_cons, or_iff_right hne]
  refine ⟨hnext, ⟨hkeeps, fun k hk => ?_⟩, hmet⟩
  obtain rfl | hk := List.mem_cons.mp hk
  · exact .inr hleast
  · exact .inl hk

/-- **A node that stands for a document is met.** -/
theorem exists_meet (h : Consistent nodes others m) (hn : ∃ d, Represents nodes n d)
    (hleast : least ≤ n) (reading : Nat) :
    ∃ m', m.meet reading n = .ok m' ∧ Consistent nodes others m' ∧ m.Extends least m'
      ∧ m'.Met n := by
  by_cases hmet : m.Met n
  · exact ⟨m, by rw [meet]; exact if_pos hmet, h, .refl least m, hmet⟩
  · have hform : NodeForm nodes n := hn.elim fun d hd => hd.form
    rw [meet, if_neg (show ¬(m.value? n).isSome = true from hmet)]
    have hawait := fun hscalar => h.await_emptied hn hscalar hleast
    cases hform with
    | text s node =>
      have hnode := Nodes.node_of_getElem? node
      have hfilled := Nodes.filled_of_getElem? node
      have htext : scalarText nodes (nodes.size + 1) n = .ok s := by rw [scalarText, hnode]
      have hnote := h.note_filled least hn (by rw [hfilled]; exact List.forall_mem_nil _)
        (fun k hk => .inr hk) (List.Subset.refl others)
      rw [hfilled] at hnote
      refine ⟨_, ?_, hnote⟩
      rw [h.same, hnode]
      simp only [leaf, h.same, htext]
      rfl
    | list items node =>
      have hnode := Nodes.node_of_getElem? node
      rw [Nodes.filled_of_getElem? node] at hawait
      refine ⟨_, ?_, hawait (by rw [isScalar, hnode])⟩
      rw [h.same, hnode]
      rfl
    | map entries node =>
      have hnode := Nodes.node_of_getElem? node
      rw [Nodes.filled_of_getElem? node] at hawait
      refine ⟨_, ?_, hawait (by rw [isScalar, hnode])⟩
      rw [h.same, hnode]
      rfl

/-- Nodes that stand for documents are met one after the other. -/
theorem exists_meetAll {items : List Nat} (h : Consistent nodes others m) (least : Nat)
    (hitems : ∀ k ∈ items, least ≤ k ∧ ∃ d, Represents nodes k d) (reading : Nat) :
    ∃ m', m.meetAll reading items = .ok m' ∧ Consistent nodes others m' ∧ m.Extends least m'
      ∧ ∀ k ∈ items, m'.Met k := by
  induction items generalizing m with
  | nil => exact ⟨m, rfl, h, .refl least m, List.forall_mem_nil _⟩
  | cons n items ih =>
    rw [List.forall_mem_cons] at hitems
    obtain ⟨m₁, hmeet, h₁, hextends₁, hmet⟩ := exists_meet h hitems.1.2 hitems.1.1 reading
    obtain ⟨m₂, hmeets, h₂, hextends₂, hmets⟩ := ih h₁ hitems.2
    refine ⟨m₂, ?_, h₂, hextends₁.trans hextends₂,
      List.forall_mem_cons.mpr ⟨hextends₂.met n hmet, hmets⟩⟩
    rw [meetAll, hmeet]
    exact hmeets

/-- The key of a node that holds a text is that text, once the node has been met. -/
theorem key_of_met (h : Consistent nodes others m) {s : String}
    (hnode : nodes[n]? = some ⟨some .text, .scalar s⟩) (hmet : m.Met n) :
    m.key n = .ok (.text s) := by
  obtain ⟨value, hvalue⟩ := Option.isSome_iff_exists.mp hmet
  have hleaf : value = .leaf (.text s) := by
    have hfilled := Nodes.filled_of_getElem? hnode
    obtain ⟨rfl, -⟩ | ⟨-, rfl⟩ := h.values n value hvalue
    · exact hfilled
    · rw [hfilled]
      rfl
  rw [key, hvalue, hleaf]

/-- **The entries of a map of names** are entered in their order. -/
theorem exists_enterAll {entries : List (Nat × Nat)} (h : Consistent nodes others m) (least : Nat)
    (hkeys : ∀ entry ∈ entries, ∃ s, nodes[entry.1]? = some ⟨some .text, .scalar s⟩)
    (hparts : ∀ entry ∈ entries,
      least ≤ entry.1 ∧ least ≤ entry.2 ∧ ∃ d, Represents nodes entry.2 d)
    (reading : Nat) (table : Table Nat) :
    ∃ m', m.enterAll reading table entries = .ok (table.insertAll
        (entries.map fun entry => (.text (nodes.textAt entry.1), entry.2)), m')
      ∧ Consistent nodes others m' ∧ m.Extends least m' ∧ ∀ entry ∈ entries, m'.Met entry.2 := by
  induction entries generalizing m table with
  | nil => exact ⟨m, rfl, h, .refl least m, List.forall_mem_nil _⟩
  | cons entry entries ih =>
    rw [List.forall_mem_cons] at hkeys hparts
    obtain ⟨⟨s, hs⟩, hkeys⟩ := hkeys
    obtain ⟨⟨hleast, hleast', hd⟩, hparts⟩ := hparts
    -- the key is looked up as soon as it has been met, and then the value is met
    obtain ⟨m₁, hkey, h₁, hextends₁, hmet₁⟩ := exists_meet h ⟨_, .text hs⟩ hleast reading
    obtain ⟨m₂, hvalue, h₂, hextends₂, hmet₂⟩ := exists_meet h₁ hd hleast' reading
    obtain ⟨m₃, henter, h₃, hextends₃, hmet₃⟩ := ih h₂ hkeys hparts
      (table.insert (.text s) entry.2)
    refine ⟨m₃, ?_, h₃, (hextends₁.trans hextends₂).trans hextends₃,
      List.forall_mem_cons.mpr ⟨hextends₃.met _ hmet₂, hmet₃⟩⟩
    rw [enterAll, hkey]
    simp only [bind, Except.bind, key_of_met h₁ hs hmet₁, hvalue, henter]
    rw [List.map_cons, textAt_of_getElem? hs]
    rfl

/-- **A map gets its entries**: it takes over nothing, and no name replaces another. -/
theorem exists_mapEntries {entries : List (Nat × Nat)} (h : Consistent nodes others m)
    (hnode : nodes[n]? = some ⟨some .map, .map entries⟩)
    (hnames : (entries.map fun entry => nodes.textAt entry.1).Nodup)
    (hkeys : ∀ entry ∈ entries, ∃ s, nodes[entry.1]? = some ⟨some .text, .scalar s⟩)
    (hparts : ∀ entry ∈ entries, n < entry.1 ∧ n < entry.2 ∧ ∃ d, Represents nodes entry.2 d)
    (reading : Nat) :
    ∃ m', m.mapEntries reading n
        = .ok (entries.map fun entry => (.text (nodes.textAt entry.1), entry.2), m')
      ∧ Consistent nodes others m' ∧ m.Extends (n + 1) m' ∧ ∀ entry ∈ entries, m'.Met entry.2 := by
  have hentries : nodes.entries? n = some entries := by
    rw [Nodes.entries?, Nodes.node_of_getElem? hnode]
  obtain ⟨m', henter, h', hextends, hmet⟩ := exists_enterAll h (n + 1) hkeys hparts
    reading .empty
  have htable : Table.insertAll .empty
      (entries.map fun entry => (.text (nodes.textAt entry.1), entry.2))
      = ⟨entries.map fun entry => (.text (nodes.textAt entry.1), entry.2)⟩ := by
    refine Table.ofList_of_distinctKeys ?_
    rw [List.map_map]
    have hdistinct := Table.distinctKeys_text_iff.mpr hnames
    rwa [List.map_map] at hdistinct
  rw [htable] at henter
  refine ⟨m', ?_, h', hextends, hmet⟩
  have hsame : { m with nodes := nodes } = m := by rw [← h.same]
  rw [mapEntries, h.same, hentries]
  simp only [takeOver_of_texts hnode hkeys, bind, Except.bind, hentries, Option.getD_some, hsame,
    henter]

/-- **A node gets its parts** and is then no longer among those that are to get them. -/
theorem exists_complete (h : Consistent nodes (n :: others) m) (reading : Nat) :
    ∃ m', m.complete reading n = .ok m' ∧ Consistent nodes others m' ∧ m.Extends (n + 1) m' := by
  obtain ⟨hmet, hscalar⟩ := h.pending n List.mem_cons_self
  have hn := h.stand n hmet
  have hform : NodeForm nodes n := hn.elim fun d hd => hd.form
  obtain ⟨value, hvalue⟩ := Option.isSome_iff_exists.mp hmet
  have hvalues : value = nodes.filled n ∨ value = (nodes.filled n).emptied :=
    (h.values n value hvalue).imp And.left And.right
  have hothers : ∀ k ∈ n :: others, k = n ∨ k ∈ others := fun k hk => List.mem_cons.mp hk
  have hsub : others ⊆ n :: others := List.subset_cons_self n others
  cases hform with
  | text s node =>
    -- a text is never waited for
    rw [isScalar, Nodes.node_of_getElem? node] at hscalar
    exact absurd hscalar.symm Bool.false_ne_true
  | list items node parts =>
    have hfilled := Nodes.filled_of_getElem? node
    obtain ⟨m₁, hmeets, h₁, hextends₁, hmets⟩ := exists_meetAll h (n + 1) parts reading
    have hnote := h₁.note_filled (n + 1) hn (by rw [hfilled]; exact hmets) hothers hsub
    rw [hfilled] at hnote hvalues
    obtain ⟨others', hlist⟩ : ∃ items', value = .list items' :=
      hvalues.elim (fun h => ⟨_, h⟩) fun h => ⟨_, h⟩
    refine ⟨_, ?_, hnote.1, hextends₁.trans hnote.2.1⟩
    rw [complete, hvalue, hlist]
    simp only [listItems, h.same, Nodes.node_of_getElem? node, bind, Except.bind, hmeets]
    rfl
  | map entries node names keys parts =>
    have hfilled := Nodes.filled_of_getElem? node
    obtain ⟨m₁, hentries, h₁, hextends₁, hmets⟩ := exists_mapEntries h node names keys parts reading
    have hnote := h₁.note_filled (n + 1) hn ?_ hothers hsub
    · rw [hfilled] at hnote hvalues
      obtain ⟨entries', hmap⟩ : ∃ entries', value = .map entries' :=
        hvalues.elim (fun h => ⟨_, h⟩) fun h => ⟨_, h⟩
      refine ⟨_, ?_, hnote.1, hextends₁.trans hnote.2.1⟩
      rw [complete, hvalue, hmap]
      simp only [bind, Except.bind, hentries]
      rfl
    · intro k hk
      rw [hfilled] at hk
      obtain ⟨entry, hentry, rfl⟩ : ∃ entry ∈ entries, entry.2 = k := by
        simpa [Nodes.valueOf, Value.parts] using hk
      exact hmets entry hentry

/-- **A round**: all nodes in it get their parts, and only greater ones are then waiting. -/
theorem exists_completeAll {todo : List Nat} (h : Consistent nodes todo m) (least : Nat)
    (htodo : ∀ n ∈ todo, least ≤ n + 1) (reading : Nat) :
    ∃ m', m.completeAll reading todo = .ok m' ∧ Consistent nodes [] m' ∧ m.Extends least m' := by
  induction todo generalizing m with
  | nil => exact ⟨m, rfl, h, .refl least m⟩
  | cons n todo ih =>
    rw [List.forall_mem_cons] at htodo
    obtain ⟨m₁, hcomplete, h₁, hextends₁⟩ := exists_complete h reading
    obtain ⟨m₂, hcompletes, h₂, hextends₂⟩ := ih h₁ htodo.2
    refine ⟨m₂, ?_, h₂, ⟨fun k hk => hextends₂.met k (hextends₁.met k hk), fun k hk => ?_⟩⟩
    · rw [completeAll, hcomplete]
      exact hcompletes
    · obtain hk | hk := hextends₂.waiting k hk
      · exact (hextends₁.waiting k hk).imp_right (Nat.le_trans htodo.1)
      · exact .inr hk

/-- What waits for the next round is in it. -/
theorem Consistent.round (h : Consistent nodes [] m) :
    Consistent nodes m.waiting.reverse { m with waiting := [] } := by
  have hmem : ∀ {k}, k ∈ [] ++ m.waiting ↔ k ∈ m.waiting.reverse ++ [] := by simp
  refine ⟨h.same, h.size, h.stand, fun k hk => h.pending k (hmem.mpr hk), fun k value hk => ?_⟩
  exact (h.values k value hk).imp_right (And.imp_left hmem.mp)

/-- **All rounds**: since the numbers of what is waiting grow, in the end nothing is. -/
theorem exists_rounds {fuel : Nat} (h : Consistent nodes [] m)
    (hwaiting : ∀ n ∈ m.waiting, nodes.size ≤ n + fuel) (reading : Nat) :
    ∃ m', m.rounds reading fuel = .ok m' ∧ Consistent nodes [] m' ∧ m'.waiting = []
      ∧ ∀ n, m.Met n → m'.Met n := by
  induction fuel generalizing m with
  | zero =>
    -- what is still waiting would have a number beyond all nodes
    refine ⟨m, rfl, h, List.eq_nil_iff_forall_not_mem.mpr fun n hn => ?_, fun _ h => h⟩
    obtain ⟨d, hd⟩ := h.stand n (h.pending n hn).1
    exact absurd hd.lt_size (Nat.not_lt.mpr (hwaiting n hn))
  | succ fuel ih =>
    rw [rounds]
    by_cases hempty : m.waiting = []
    · exact ⟨m, by rw [hempty]; rfl, h, hempty, fun _ h => h⟩
    · obtain ⟨m₁, hcomplete, h₁, hextends⟩ := exists_completeAll h.round
        (nodes.size - fuel) (fun n hn => by
          have := hwaiting n (List.mem_reverse.mp hn)
          omega) reading
      obtain ⟨m₂, hrounds, h₂, hwaiting₂, hmet⟩ := ih h₁ fun n hn => by
        have hle := (hextends.waiting n hn).resolve_left List.not_mem_nil
        omega
      refine ⟨m₂, ?_, h₂, hwaiting₂, fun n hn => hmet n (hextends.met n hn)⟩
      rw [if_neg (by simpa using hempty), hcomplete]
      exact hrounds

end Making

/-! ## Putting documents together -/

/-- Whether a document is what a node stands for, whatever that is. -/
def Builds (nodes : Nodes) (n : Nat) (found : Document) : Prop :=
  ∀ d, Represents nodes n d → ComesBackAs d found

theorem builds_text {s : String} (hnode : nodes[n]? = some ⟨some .text, .scalar s⟩) :
    Builds nodes n (.text s) := by
  intro d hd
  cases hd with
  | text node =>
    rw [hnode] at node
    cases node
    exact .text s
  | row node => cases hnode.symm.trans node
  | record node => cases hnode.symm.trans node

/-- A list is built when its items are. -/
theorem builds_list {items : List Nat} {found : List Document}
    (hnode : nodes[n]? = some ⟨some .list, .list items⟩)
    (h : List.Forall₂ (Builds nodes) items found) (id : Option Identity) :
    Builds nodes n (.list id found) := by
  intro d hd
  cases hd with
  | text node => cases hnode.symm.trans node
  | @row _ parts node later represent =>
    rw [hnode] at node
    cases node
    refine .list id (List.forall₂_map_left_iff.mpr ?_)
    exact ((List.forall₂_and_left _ _).mpr ⟨represent, List.forall₂_map_left_iff.mp h⟩).imp
      fun part found hpart => hpart.2 _ hpart.1
  | record node => cases hnode.symm.trans node

/-- A map is built when its values are. -/
theorem builds_map {entries : List (Nat × Nat)} {found : List (Document × Document)}
    (hnode : nodes[n]? = some ⟨some .map, .map entries⟩)
    (h : List.Forall₂ (fun entry (found : Document × Document) =>
      found.1 = .text (nodes.textAt entry.1) ∧ Builds nodes entry.2 found.2) entries found)
    (id : Option Identity) : Builds nodes n (.map id found) := by
  intro d hd
  cases hd with
  | text node => cases hnode.symm.trans node
  | row node => cases hnode.symm.trans node
  | @record _ parts node names later keys represent =>
    rw [hnode] at node
    cases node
    refine .map id (List.forall₂_map_left_iff.mpr (List.forall₂_map_left_iff.mpr ?_))
    refine ((List.forall₂_and_left _ _).mpr ⟨keys, (List.forall₂_and_left _ _).mpr
      ⟨represent, List.forall₂_map_left_iff.mp h⟩⟩).imp fun part found hpart => ?_
    obtain ⟨hkey, hrepresents, hfound, hbuilds⟩ := hpart
    obtain ⟨key, value⟩ := found
    obtain rfl : key = .text part.2.1 := by
      rw [← textAt_of_getElem? hkey]
      exact hfound
    exact .entry _ (hbuilds _ hrepresents)

/-- **What has been finished is what its node stands for.** -/
def IsFinished (nodes : Nodes) (finished : Finished) : Prop :=
  ∀ n found, finished[n]? = some (some found) → Builds nodes n found

/-- **What has been put together without a loop that leads out of it**, and what has been finished
then. -/
structure Joins {α : Type} (nodes : Nodes) (stands : α → Prop) (joined : Joined α) : Prop where
  part : stands joined.part
  outward : joined.outward = []
  finished : IsFinished nodes joined.finished

/-- Parts are put together one after the other. -/
theorem joins_joinAll {α β : Type} {stands : α → β → Prop} {join : α → Finished → Joined β}
    {as : List α} {finished : Finished} (hfinished : IsFinished nodes finished)
    (h : ∀ a ∈ as, ∀ finished, IsFinished nodes finished →
      Joins nodes (stands a) (join a finished)) :
    Joins nodes (List.Forall₂ stands as) (Value.joinAll join as finished) := by
  induction as generalizing finished with
  | nil => exact ⟨.nil, rfl, hfinished⟩
  | cons a as ih =>
    rw [List.forall_mem_cons] at h
    have hfirst := h.1 finished hfinished
    have hrest := ih hfirst.finished h.2
    refine ⟨.cons hfirst.part hrest.part, ?_, hrest.finished⟩
    rw [Value.joinAll]
    simp only [hfirst.outward, hrest.outward, List.append_nil]

/-- The values of a map are put together, each under its name. -/
theorem joins_values {inner : Nat → Finished → Joined Document} (entries : List (Nat × Nat))
    {finished : Finished} (hfinished : IsFinished nodes finished)
    (h : ∀ entry ∈ entries, ∀ finished, IsFinished nodes finished →
      Joins nodes (Builds nodes entry.2) (inner entry.2 finished)) :
    Joins nodes (List.Forall₂ (fun entry found =>
        found.1 = .text (nodes.textAt entry.1) ∧ Builds nodes entry.2 found.2) entries)
      (Value.joinAll (fun (entry : Document × Nat) finished =>
          let value := inner entry.2 finished
          { value with part := (entry.1, value.part) })
        (entries.map fun entry => (.text (nodes.textAt entry.1), entry.2)) finished) := by
  have hmapped : Joins nodes (List.Forall₂ (fun (entry : Document × Nat) found =>
        found.1 = entry.1 ∧ Builds nodes entry.2 found.2)
        (entries.map fun entry => (.text (nodes.textAt entry.1), entry.2)))
      (Value.joinAll (fun (entry : Document × Nat) finished =>
          let value := inner entry.2 finished
          { value with part := (entry.1, value.part) })
        (entries.map fun entry => (.text (nodes.textAt entry.1), entry.2)) finished) := by
    refine joins_joinAll hfinished fun entry hentry finished hfinished => ?_
    obtain ⟨entry, hmem, rfl⟩ := List.mem_map.mp hentry
    obtain ⟨hpart, houtward, hfinished'⟩ := h entry hmem finished hfinished
    exact ⟨⟨rfl, hpart⟩, houtward, hfinished'⟩
  exact ⟨List.forall₂_map_left_iff.mp hmapped.part, hmapped.outward, hmapped.finished⟩

/-- A list or map without a loop that leads out of it is finished. -/
theorem joins_close {reading : Nat} {body : Joined Document}
    (h : Joins nodes (Builds nodes n) body) :
    Joins nodes (Builds nodes n) (Value.close reading n body) := by
  obtain ⟨hpart, houtward, hfinished⟩ := h
  obtain ⟨part, outward, finished⟩ := body
  obtain rfl : outward = [] := houtward
  refine ⟨hpart, rfl, fun k found hk => ?_⟩
  have hk' : (finished.setIfInBounds n (some part))[k]? = some (some found) := hk
  rw [Array.getElem?_setIfInBounds] at hk'
  split at hk'
  · next heq =>
    obtain ⟨-, hsome⟩ := Option.ite_none_right_eq_some.mp hk'
    obtain rfl : part = found := Option.some.inj (Option.some.inj hsome)
    exact heq ▸ hpart
  · exact hfinished k found hk'

/-- **The document of a node is put together**: inside nodes with smaller numbers it is never met
again, and its parts have greater ones. -/
theorem joins_join {m : Making} (h : m.Consistent nodes []) (hwaiting : m.waiting = [])
    {fuel : Nat} {around : List Nat} {finished : Finished} (hmet : m.Met n)
    (haround : ∀ k ∈ around, k < n) (hfuel : nodes.size ≤ n + fuel)
    (hfinished : IsFinished nodes finished) (reading : Nat) :
    Joins nodes (Builds nodes n) (Value.join reading m.values fuel around n finished) := by
  induction fuel generalizing n around finished with
  | zero =>
    obtain ⟨d, hd⟩ := h.stand n hmet
    exact absurd hd.lt_size (Nat.not_lt.mpr hfuel)
  | succ fuel ih =>
    -- `around` holds smaller numbers only, and goes on to do so for the parts
    have houtside : ¬around.contains n = true := fun hmem =>
      Nat.lt_irrefl n (haround n (List.contains_iff_mem.mp hmem))
    have hinner : ∀ k, n < k → m.Met k → ∀ finished, IsFinished nodes finished →
        Joins nodes (Builds nodes k) (Value.join reading m.values fuel (n :: around) k finished) :=
      fun k hk hmet finished hfinished => ih hmet
        (List.forall_mem_cons.mpr ⟨hk, fun j hj => Nat.lt_trans (haround j hj) hk⟩) (by omega)
        hfinished
    obtain ⟨value, hvalue⟩ := Option.isSome_iff_exists.mp hmet
    have hform : NodeForm nodes n := (h.stand n hmet).elim fun d hd => hd.form
    obtain ⟨rfl, hparts⟩ := (h.values n value hvalue).resolve_right fun hpending => by
      rw [hwaiting] at hpending
      exact List.not_mem_nil hpending.1
    have hjoin : (m.values[n]?).join = some (nodes.filled n) := hvalue
    rw [Value.join]
    simp only [if_neg houtside]
    split
    · next found hfound => exact ⟨hfinished n found hfound, rfl, hfinished⟩
    · cases hform with
      | text s node =>
        rw [hjoin, Nodes.filled_of_getElem? node]
        exact ⟨builds_text node, rfl, hfinished⟩
      | list items node parts =>
        rw [Nodes.filled_of_getElem? node] at hjoin hparts
        rw [hjoin]
        have hitems : Joins nodes (List.Forall₂ (Builds nodes) items) _ :=
          joins_joinAll hfinished fun k hk => hinner k (parts k hk).1 (hparts k hk)
        exact joins_close ⟨builds_list node hitems.part _, hitems.outward, hitems.finished⟩
      | map entries node names keys parts =>
        rw [Nodes.filled_of_getElem? node] at hjoin hparts
        rw [hjoin]
        have hentries := joins_values entries hfinished fun entry hentry =>
          hinner entry.2 (parts entry hentry).2.1
            (hparts _ (List.mem_map_of_mem (List.mem_map_of_mem hentry)))
        exact joins_close ⟨builds_map node hentries.part _, hentries.outward, hentries.finished⟩

/-! ## The document -/

/-- Before the first node is met nothing is known. -/
theorem Making.consistent_start (nodes : Nodes) : (Making.start nodes).Consistent nodes [] := by
  have hnone : ∀ n, (Making.start nodes).value? n = none := by
    intro n
    rw [Making.value?, Making.start, Array.getElem?_replicate]
    split
    · rfl
    · rfl
  have hmet : ∀ n, ¬(Making.start nodes).Met n := fun n hn => by
    rw [Making.Met, hnone] at hn
    exact absurd hn.symm Bool.noConfusion
  exact ⟨rfl, Array.size_replicate, fun n hn => absurd hn (hmet n),
    fun n hn => absurd hn List.not_mem_nil, fun n value hn => by
      rw [hnone] at hn
      exact nomatch hn⟩

/-- **Nodes that stand for a document of texts are made into it**, up to identities. -/
theorem Represents.exists_document {root : Nat} (h : Represents nodes root d) (reading : Nat) :
    ∃ found, Graph.document reading ⟨nodes, root⟩ = .ok found ∧ ComesBackAs d found := by
  obtain ⟨met, hmeet, hconsistent, hextends, hmet⟩ := Making.exists_meet
    (Making.consistent_start nodes) ⟨d, h⟩ (Nat.zero_le root) reading
  obtain ⟨m, hrounds, hconsistent, hwaiting, hkeeps⟩ := Making.exists_rounds hconsistent
    (fun n _ => show nodes.size ≤ n + (nodes.size + 1) by omega) reading
  have hjoins := joins_join hconsistent hwaiting (hkeeps root hmet) (List.forall_mem_nil _)
    (show nodes.size ≤ root + (nodes.size + 1) by omega)
    (show IsFinished nodes (Array.replicate nodes.size none) from ?_) reading
  · refine ⟨_, ?_, hjoins.part d h⟩
    rw [Graph.document]
    simp only [bind, Except.bind, hmeet, hrounds]
  · intro n found hn
    rw [Array.getElem?_replicate] at hn
    split at hn
    · exact nomatch hn
    · exact nomatch hn

end SlotSafe.Yaml
