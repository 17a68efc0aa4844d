import SlotSafe.Proofs.ExtractedTexts
import SlotSafe.Proofs.ListedContracts

/-!
# Looking up a contract

A contract is asked for by its name, or by a path and a name with a colon between them. A path may
hold colons itself, so a text is taken apart at its last one (`splitLastColon_append`); a name
behind it has none. **Of the contracts that an output lists exactly those answer that a text asks
for** (`answers_eq_ok`), and one of them is found if it is the only one.

If there are several, the fault names each of them by its path and name. Where names have no colons
and no source has two contracts of one name, what is named so asks for this one contract and no
other, so whoever follows the fault's advice gets an answer (`findContract_of_asksFor`).
-/

namespace SlotSafe.Compilation

open Document

/-! ## What a text asks for -/

/-- **A text asks for contract definitions**: a text without a colon for those of that name, and a
text with colons for those of the name behind the last one in the source before it. -/
inductive AsksFor : String → Document × Document → Prop
  | byName {path node : Document} {name : String} (h : ':' ∉ name.toList)
      (hname : node.textAt ["name"] = some name) : AsksFor name (path, node)
  | byPath {node : Document} {path name : String} (h : ':' ∉ name.toList)
      (hname : node.textAt ["name"] = some name) : AsksFor (path ++ ":" ++ name) (.text path, node)

theorem splitLastColon_of_not_mem {s : List Char} (h : ':' ∉ s) : splitLastColon s = none := by
  unfold splitLastColon
  rw [if_neg (by simpa using h)]

theorem splitLastColon_append (path : List Char) {name : List Char} (h : ':' ∉ name) :
    splitLastColon (path ++ ':' :: name) = some (path, name) := by
  have hreverse : ∀ c ∈ name.reverse, (c != ':') = true := fun c hc =>
    bne_iff_ne.mpr fun hcolon => h (hcolon ▸ List.mem_reverse.mp hc)
  have hafter : ((path ++ ':' :: name).reverse.takeWhile (· != ':')).reverse = name := by
    rw [List.reverse_append, List.reverse_cons, List.append_assoc,
      List.takeWhile_append_of_pos hreverse]
    simp
  have hbefore : (path ++ ':' :: name).length - name.length - 1 = path.length := by
    rw [List.length_append, List.length_cons]
    omega
  unfold splitLastColon
  rw [hafter, if_pos (by simp), hbefore, List.take_left]

/-- A text without a colon is a name. -/
theorem ofText_name {name : String} (h : ':' ∉ name.toList) :
    Query.ofText name = ⟨.text name, none, .text name⟩ := by
  rw [Query.ofText, splitLastColon_of_not_mem h]

/-- What stands behind the last colon is a name, and what stands before it a path. -/
theorem ofText_path (path : String) {name : String} (h : ':' ∉ name.toList) :
    Query.ofText (path ++ ":" ++ name) = ⟨.text (path ++ ":" ++ name), some path, .text name⟩ := by
  have hchars : (path ++ ":" ++ name).toList = path.toList ++ ':' :: name.toList := by simp
  rw [Query.ofText, hchars, splitLastColon_append _ h]
  simp

/-- A text has no colon, or it has a last one. -/
theorem exists_lastColon (s : String) :
    ':' ∉ s.toList ∨ ∃ path name, s = path ++ ":" ++ name ∧ ':' ∉ name.toList := by
  by_cases h : ':' ∈ s.toList
  · obtain ⟨after, before, hsplit, hafter⟩ :=
      List.eq_append_cons_of_mem (List.mem_reverse.mpr h)
    refine .inr ⟨.ofList before.reverse, .ofList after.reverse, ?_, by simpa using hafter⟩
    have hchars := congrArg List.reverse hsplit
    rw [List.reverse_reverse, List.reverse_append, List.reverse_cons] at hchars
    exact String.toList_injective (by simp [hchars])
  · exact .inl h

/-- Whether a contract definition has the name and the path of a query. -/
def answersTo (q : Query) (found : Document × Document) : Bool :=
  (found.2.at? "name").getD .null == q.name && match q.path with
    | some path => found.1 == .text path
    | none => true

/-- **What a text asks for is what answers the query that it stands for.** -/
theorem answersTo_ofText_iff {s : String} {found : Document × Document} :
    answersTo (.ofText s) found = true ↔ AsksFor s found := by
  obtain ⟨path, node⟩ := found
  constructor
  · intro h
    obtain hplain | ⟨p, name, rfl, hname⟩ := exists_lastColon s
    · rw [ofText_name hplain] at h
      obtain ⟨h, -⟩ := Bool.and_eq_true_iff.mp h
      refine .byName hplain ?_
      rw [textAt_singleton]
      exact text?_eq_some_iff.mpr (beq_text_iff.mp h)
    · rw [ofText_path p hname] at h
      obtain ⟨h, hpath⟩ := Bool.and_eq_true_iff.mp h
      obtain rfl := beq_text_iff.mp hpath
      refine .byPath hname ?_
      rw [textAt_singleton]
      exact text?_eq_some_iff.mpr (beq_text_iff.mp h)
  · intro h
    cases h with
    | byName hplain hname =>
      rw [ofText_name hplain]
      rw [textAt_singleton, text?_eq_some_iff] at hname
      exact Bool.and_eq_true_iff.mpr ⟨beq_text_iff.mpr hname, rfl⟩
    | byPath hplain hname =>
      rw [ofText_path _ hplain]
      rw [textAt_singleton, text?_eq_some_iff] at hname
      exact Bool.and_eq_true_iff.mpr ⟨beq_text_iff.mpr hname, beq_text_iff.mpr rfl⟩

instance (s : String) (found : Document × Document) : Decidable (AsksFor s found) :=
  decidable_of_iff _ answersTo_ofText_iff

/-- **The contracts of an output that qualify**, in order. -/
def qualifying (output : Document) (s : String) : List (Document × Document) :=
  (listedContracts output).filter fun found => AsksFor s found

/-- A contract definition by its path and name. -/
def qualifiedName (found : Document × Document) : Option String := do
  let path ← found.1.text?
  let name ← found.2.textAt ["name"]
  some (path ++ ":" ++ name)

variable {output : Document}

/-! ## Finding what is asked for -/

theorem answers_eq_ok (q : Query) {defs : List (Document × Document)}
    (h : ∀ found ∈ defs, found.2.table?.isSome = true) :
    answers q defs = .ok (defs.filter (answersTo q)) := by
  induction defs with
  | nil => rfl
  | cons found rest ih =>
    obtain ⟨path, node⟩ := found
    obtain ⟨hfound, hrest⟩ := List.forall_mem_cons.mp h
    have hadmits : q.admits path node = .ok (answersTo q (path, node)) := by
      rw [Query.admits, memberOrNull, memberOr_of_isSome hfound]
      rfl
    rw [answers, hadmits, ih hrest, List.filter_cons]
    rfl

/-- What answers a query is named by its path and name. -/
theorem exists_candidates [NestingLimits] {q : Query} {defs : List (Document × Document)}
    (hq : q.name.isText = true) (hpaths : ∀ found ∈ defs, found.1.isText = true)
    (hanswers : ∀ found ∈ defs, answersTo q found = true) :
    ∃ several, candidates q defs = .ok several ∧ several.map some = defs.map qualifiedName := by
  obtain ⟨name, hname⟩ := exists_text_of_isText hq
  induction defs with
  | nil => exact ⟨[], rfl, rfl⟩
  | cons found rest ih =>
    obtain ⟨path, node⟩ := found
    obtain ⟨hpath, hpaths⟩ := List.forall_mem_cons.mp hpaths
    obtain ⟨hanswer, hanswers⟩ := List.forall_mem_cons.mp hanswers
    obtain ⟨several, hseveral, hnames⟩ := ih hpaths hanswers
    obtain ⟨path, rfl⟩ := exists_text_of_isText hpath
    have hnode : node.textAt ["name"] = some name := by
      rw [textAt_singleton, text?_eq_some_iff]
      exact beq_text_iff.mp (hname ▸ (Bool.and_eq_true_iff.mp hanswer).1)
    refine ⟨(path ++ ":" ++ name) :: several, ?_, ?_⟩
    · rw [candidates, candidate, hname, hseveral]
      rfl
    · rw [List.map_cons, List.map_cons, hnames, qualifiedName, hnode]
      rfl

theorem asked_ofText (s : String) : (Query.ofText s).asked = .text s := by
  unfold Query.ofText
  split <;> rfl

theorem result_findContract [NestingLimits] (q : Query) :
    (findContract output q).result = (find output q).map Prod.snd := by
  unfold findContract
  cases find output q <;> rfl

/-- **An output that lists contracts under paths**, which are texts. -/
structure ListsPaths (output : Document) : Prop extends ListsContracts output where
  paths : ∀ found ∈ listedContracts output, found.1.isText = true

/-- A text is looked up among the contracts that qualify. -/
theorem find_ofText [NestingLimits] (h : ListsContracts output) (s : String) :
    find output (.ofText s) = match qualifying output s with
      | [] => .error (.rejected (.contractMissing s))
      | [found] => .ok found
      | several => candidates (.ofText s) several >>= fun several =>
        .error (.rejected (.contractAmbiguous s several)) := by
  have hqualifying :
      (listedContracts output).filter (answersTo (.ofText s)) = qualifying output s :=
    List.filter_congr fun found _ => Bool.eq_iff_iff.mpr
      (answersTo_ofText_iff.trans decide_eq_true_iff.symm)
  unfold find
  rw [definitions_eq_ok h]
  show (answers (.ofText s) (listedContracts output) >>= _) = _
  rw [answers_eq_ok _ fun _ hfound => isSome_table?_of_listed hfound, hqualifying]
  show (match qualifying output s with | [] => _ | [found] => _ | several => _) = _
  rw [asked_ofText]
  rfl

/-- **Names without colons, of which no source has one twice.** -/
structure DistinctNames (output : Document) : Prop where
  plain : ∀ found ∈ listedContracts output, ∀ name,
    found.2.textAt ["name"] = some name → ':' ∉ name.toList
  apart : (listedContracts output).Pairwise fun found other => found.1 = other.1 →
    ∀ name, found.2.textAt ["name"] = some name → other.2.textAt ["name"] ≠ some name

theorem asksFor_path_iff {path name : String} (h : ':' ∉ name.toList)
    {found : Document × Document} :
    AsksFor (path ++ ":" ++ name) found
      ↔ found.1 = .text path ∧ found.2.textAt ["name"] = some name := by
  rw [← answersTo_ofText_iff, ofText_path path h, answersTo, Bool.and_eq_true_iff, beq_text_iff,
    beq_text_iff, textAt_singleton, text?_eq_some_iff, and_comm]

/-- Of elements that exclude each other at most one is left. -/
theorem filter_eq_singleton {α : Type} {R : α → α → Prop} {p : α → Bool} {as : List α} {a : α}
    (hexclude : as.Pairwise R) (hp : ∀ b c, p b = true → p c = true → ¬R b c) (ha : a ∈ as)
    (hpa : p a = true) : as.filter p = [a] := by
  have hmem : a ∈ as.filter p := List.mem_filter.mpr ⟨ha, hpa⟩
  have hall : ∀ b ∈ as.filter p, p b = true := fun b hb => (List.mem_filter.mp hb).2
  have hrest := hexclude.sublist (List.filter_sublist (p := p))
  match as.filter p, hmem, hall, hrest with
  | [b], hmem, _, _ => rw [List.mem_singleton.mp hmem]
  | b :: c :: _, _, hall, hrest =>
    have hbc := (List.pairwise_cons.mp hrest).1 c List.mem_cons_self
    exact absurd hbc (hp b c (hall b List.mem_cons_self)
      (hall c (List.mem_cons_of_mem _ List.mem_cons_self)))

/-- **A contract is the only one that its path and name ask for.** -/
theorem qualifying_of_distinctNames (h : DistinctNames output) {path name : String}
    {node : Document} (hfound : (.text path, node) ∈ listedContracts output)
    (hname : node.textAt ["name"] = some name) :
    qualifying output (path ++ ":" ++ name) = [(.text path, node)] := by
  have hplain := h.plain _ hfound name hname
  refine filter_eq_singleton h.apart (fun found other hfound hother hapart => ?_) hfound
    (decide_eq_true ((asksFor_path_iff hplain).mpr ⟨rfl, hname⟩))
  obtain ⟨hpath, hname⟩ := (asksFor_path_iff hplain).mp (of_decide_eq_true hfound)
  obtain ⟨hpath', hname'⟩ := (asksFor_path_iff hplain).mp (of_decide_eq_true hother)
  exact hapart (hpath.trans hpath'.symm) name hname hname'

/-- A contract that alone qualifies is found, and no other. -/
theorem findContract_eq_ok_iff [NestingLimits] (h : ListsContracts output) {s : String}
    {node : Document} :
    (findContract output (.ofText s)).result = .ok node
      ↔ ∃ path, qualifying output s = [(path, node)] := by
  rw [result_findContract, find_ofText h]
  match hqualifying : qualifying output s with
  | [] => simp [map_eq_ok_iff]
  | [(path, found)] => simp [Except.map]
  | first :: second :: rest =>
    simp only [map_eq_ok_iff, bind_eq_ok_iff]
    simp

/-- The contracts that qualify for a text can all be named. -/
theorem exists_candidates_qualifying [NestingLimits] (h : ListsPaths output) (s : String) :
    ∃ several, candidates (.ofText s) (qualifying output s) = .ok several
      ∧ several.map some = (qualifying output s).map qualifiedName :=
  exists_candidates (Query.isText_ofText s).2
    (fun _ hfound => h.paths _ (List.mem_of_mem_filter hfound))
    fun _ hfound => answersTo_ofText_iff.mpr (of_decide_eq_true (List.mem_filter.mp hfound).2)

/-- Several contracts that qualify are all named. -/
theorem exists_ambiguous [NestingLimits] (h : ListsPaths output) {s : String}
    (hseveral : 1 < (qualifying output s).length) :
    ∃ several, several.map some = (qualifying output s).map qualifiedName
      ∧ (findContract output (.ofText s)).result
        = .error (.rejected (.contractAmbiguous s several)) := by
  obtain ⟨several, hcandidates, hnames⟩ := exists_candidates_qualifying h s
  refine ⟨several, hnames, ?_⟩
  rw [result_findContract, find_ofText h.toListsContracts]
  match qualifying output s, hseveral, hcandidates with
  | first :: second :: rest, _, hcandidates => exact congrArg _ (congrArg (· >>= _) hcandidates)

/-- Only contracts that are several are called ambiguous. -/
theorem length_of_ambiguous [NestingLimits] (h : ListsContracts output) {s asked : String}
    {several : List String} (hfault : (findContract output (.ofText s)).result
      = .error (.rejected (.contractAmbiguous asked several))) :
    1 < (qualifying output s).length := by
  rw [result_findContract, find_ofText h] at hfault
  match hqualifying : qualifying output s with
  | [] => rw [hqualifying] at hfault; cases hfault
  | [found] => rw [hqualifying] at hfault; cases hfault
  | first :: second :: rest => exact Nat.succ_lt_succ (Nat.succ_pos _)

/-- **Looking up a contract.** Exactly if one listed contract qualifies for a text it is found. If
none does the fault says so, and if several do it names all of them in order. Where names have no
colons and no source has one twice, the path and the name of a contract find this contract, and so
does every name that a fault gives. -/
theorem findContract_of_asksFor [NestingLimits] (h : ListsPaths output) (s : String) :
    (∀ node, (findContract output (.ofText s)).result = .ok node
      ↔ ∃ path, qualifying output s = [(path, node)])
    ∧ (qualifying output s = [] →
        (findContract output (.ofText s)).result = .error (.rejected (.contractMissing s)))
    ∧ (1 < (qualifying output s).length → ∃ several,
        several.map some = (qualifying output s).map qualifiedName
        ∧ (findContract output (.ofText s)).result
          = .error (.rejected (.contractAmbiguous s several)))
    ∧ (DistinctNames output →
        (∀ path name node, (.text path, node) ∈ listedContracts output →
          node.textAt ["name"] = some name →
          (findContract output (.ofText (path ++ ":" ++ name))).result = .ok node)
        ∧ ∀ several,
          (findContract output (.ofText s)).result
            = .error (.rejected (.contractAmbiguous s several)) →
          List.Forall₂ (fun found name => (findContract output (.ofText name)).result = .ok found.2)
            (qualifying output s) several) := by
  refine ⟨fun node => findContract_eq_ok_iff h.toListsContracts, fun hnone => ?_,
    exists_ambiguous h, fun hdistinct => ?_⟩
  · rw [result_findContract, find_ofText h.toListsContracts, hnone]
    rfl
  · have hfind : ∀ path name node, (.text path, node) ∈ listedContracts output →
        node.textAt ["name"] = some name →
        (findContract output (.ofText (path ++ ":" ++ name))).result = .ok node :=
      fun path name node hfound hname => (findContract_eq_ok_iff h.toListsContracts).mpr
        ⟨_, qualifying_of_distinctNames hdistinct hfound hname⟩
    refine ⟨hfind, fun several hfault => ?_⟩
    have hlength := length_of_ambiguous h.toListsContracts hfault
    obtain ⟨named, hnames, hnamed⟩ := exists_ambiguous h hlength
    obtain rfl : named = several := by
      rw [hnamed] at hfault
      cases hfault
      rfl
    -- each name is made of the path and the name of its contract
    have hpaired : List.Forall₂ (fun found name => qualifiedName found = some name)
        (qualifying output s) named := by
      have hequal := List.forall₂_eq_eq_eq ▸ hnames.symm
      exact List.forall₂_map_right_iff.mp (List.forall₂_map_left_iff.mp hequal)
    have hlisted : ∀ found ∈ qualifying output s, found ∈ listedContracts output :=
      fun _ hfound => List.mem_of_mem_filter hfound
    refine ((List.forall₂_and_left _ _).mpr ⟨hlisted, hpaired⟩).imp fun found name hfound => ?_
    obtain ⟨hmem, hname⟩ := hfound
    obtain ⟨path, node⟩ := found
    obtain ⟨written, hpath, hname⟩ := Option.bind_eq_some_iff.mp hname
    obtain ⟨own, hown, hname⟩ := Option.bind_eq_some_iff.mp hname
    obtain rfl := Option.some.inj hname
    obtain rfl := text?_eq_some_iff.mp hpath
    exact hfind written own node hmem hown

/-! ## One name in two sources -/

/-- The output for a token and a base, and for another token under a path with a colon. -/
def twinOutput : Document :=
  .record [("sources", .record [
    ("contracts/Token.sol", .record [("ast", .record [("nodes", .row [baseNode, tokenNode])])]),
    ("lib:v2/Token.sol", .record [("ast", .record [("nodes", .row [
      contractNode 3 "Token" [3] []])])])])]

/-- Both tokens are named when one is asked for by its name, and the second is found by its path. -/
theorem findContract_twinOutput :
    (findContract twinOutput (.ofText "Token")).result
      = .error (.rejected (.contractAmbiguous "Token"
        ["contracts/Token.sol:Token", "lib:v2/Token.sol:Token"]))
    ∧ (findContract twinOutput (.ofText "lib:v2/Token.sol:Token")).result
      = .ok (contractNode 3 "Token" [3] [])
    ∧ (findContract twinOutput (.ofText "lib:Token")).result
      = .error (.rejected (.contractMissing "lib:Token")) := by
  have hlisted : listedContracts twinOutput = [(.text "contracts/Token.sol", baseNode),
      (.text "contracts/Token.sol", tokenNode),
      (.text "lib:v2/Token.sol", contractNode 3 "Token" [3] [])] := rfl
  have houtput : ListsPaths twinOutput :=
    ⟨⟨⟨rfl, rfl, by decide⟩, by decide⟩, by rw [hlisted]; decide⟩
  have hdistinct : DistinctNames twinOutput := by
    constructor
    · have hplain : ∀ found ∈ listedContracts twinOutput,
          found.2.textAt ["name"] = some "Base" ∨ found.2.textAt ["name"] = some "Token" := by
        rw [hlisted]
        decide
      intro found hfound name hname
      obtain h | h := hplain found hfound
      all_goals
        obtain rfl := Option.some.inj (h.symm.trans hname)
        decide
    · rw [hlisted]
      refine .cons (List.forall_mem_cons.mpr ⟨fun _ name hbase htoken => ?_,
        List.forall_mem_singleton.mpr fun hpath => ?_⟩)
        (.cons (List.forall_mem_singleton.mpr fun hpath => ?_) (List.pairwise_singleton _ _))
      · exact absurd (hbase.trans htoken.symm) (by decide)
      all_goals exact absurd (text.inj hpath) (by decide)
  have hlookup := findContract_of_asksFor houtput
  refine ⟨?_, ?_, ?_⟩
  · obtain ⟨-, -, hambiguous, -⟩ := hlookup "Token"
    obtain ⟨several, hnames, hfault⟩ := hambiguous (by decide)
    rw [hfault]
    have hseveral : several.map some
        = ["contracts/Token.sol:Token", "lib:v2/Token.sol:Token"].map some := hnames
    rw [List.map_injective_iff.mpr (Option.some_injective _) hseveral]
  · obtain ⟨-, -, -, hnamed⟩ := hlookup "Token"
    exact (hnamed hdistinct).1 "lib:v2/Token.sol" "Token" _ (by rw [hlisted]; simp) rfl
  · exact (hlookup "lib:Token").2.1 rfl

end SlotSafe.Compilation
