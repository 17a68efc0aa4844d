import Mathlib.Order.Nat
import SlotSafe.Alignment

/-!
# Edits, and which of them the alignment is

An order-preserving alignment of two sequences is written here as an **edit**: a walk over both that
pairs an element of each, inserts an updated element, or deletes an original one. Every edit has a
cost, and a plan that lists its changes.

The alignment that the program computes is the plan of an edit (`exists_plan_eq_best`), and no edit
costs less (`best_cost_le_cost`). Nothing is asked of the classifier for that: what it names `equal`
need not even be an equivalence.

Leaving out one element of either sequence saves at most what it costs alone, so **a free pair of
first elements is always taken** (`best_cons_of_isFree`).

One edit is looked at more closely, the one in place: it pairs the elements position by position and
leaves alone what one sequence has more than the other. Since a pair comes first among steps that
cost the same, **the edit in place is chosen as soon as nothing is cheaper** (`best_eq_inPlace`),
and it is the only one without an insertion or a deletion (`best_eq_inPlace_of_actions`).
-/

namespace SlotSafe.Alignment

variable {α β : Type}

/-- **An order-preserving alignment of two sequences**, read from the front: each step takes an
element of both, an element of the updated sequence alone, or one of the original alone. -/
inductive Edit : List α → List α → Type where
  | done : Edit [] []
  | pair (a b : α) {as bs : List α} (e : Edit as bs) : Edit (a :: as) (b :: bs)
  | insert (b : α) {as bs : List α} (e : Edit as bs) : Edit as (b :: bs)
  | delete (a : α) {as bs : List α} (e : Edit as bs) : Edit (a :: as) bs

namespace Edit

/-- What an edit costs: nothing for a pair that is free, 3 for any other pair, and 2 for each
element that stands alone. -/
def cost (free : α → α → Bool) : {as bs : List α} → Edit as bs → Nat
  | _, _, .done => 0
  | _, _, .pair a b e => (if free a b then 0 else 3) + e.cost free
  | _, _, .insert _ e => 2 + e.cost free
  | _, _, .delete _ e => 2 + e.cost free

/-- The plan that an edit is. An updated element that stands alone is appended when no original
element is left, and inserted before one otherwise. -/
def plan (classify : α → α → String) : {as bs : List α} → Edit as bs → Plan α
  | _, _, .done => Plan.done
  | _, _, .pair a b e => Plan.pair (classify a b) a b (e.plan classify)
  | [], _, .insert b e => Plan.append b (e.plan classify)
  | _ :: _, _, .insert b e => Plan.insert b (e.plan classify)
  | _, _, .delete a e => Plan.delete a (e.plan classify)

/-- One edit after the other. -/
def append {as bs as' bs' : List α} : Edit as bs → Edit as' bs' → Edit (as ++ as') (bs ++ bs')
  | .done, f => f
  | .pair a b e, f => .pair a b (e.append f)
  | .insert b e, f => .insert b (e.append f)
  | .delete a e, f => .delete a (e.append f)

/-- The edit that inserts every updated element. -/
def insertAll : (bs : List α) → Edit [] bs
  | [] => .done
  | b :: bs => .insert b (insertAll bs)

/-- **The edit in place**, which pairs the elements position by position. -/
def inPlace : (as bs : List α) → Edit as bs
  | [], bs => insertAll bs
  | a :: as, [] => .delete a (inPlace as [])
  | a :: as, b :: bs => .pair a b (inPlace as bs)

/-- **An edit read backwards**, from the updated sequence to the original one. -/
def mirror : {as bs : List α} → Edit as bs → Edit bs as
  | _, _, .done => .done
  | _, _, .pair a b e => .pair b a e.mirror
  | _, _, .insert b e => .delete b e.mirror
  | _, _, .delete a e => .insert a e.mirror

/-! ## Costs -/

theorem cost_append (free : α → α → Bool) {as bs as' bs' : List α} (e : Edit as bs)
    (f : Edit as' bs') : (e.append f).cost free = e.cost free + f.cost free := by
  induction e with
  | done => rw [append, cost, Nat.zero_add]
  | pair a b e ih => rw [append, cost, cost, ih, Nat.add_assoc]
  | insert b e ih => rw [append, cost, cost, ih, Nat.add_assoc]
  | delete a e ih => rw [append, cost, cost, ih, Nat.add_assoc]

/-- An insertion costs what a deletion does, so that an edit read backwards costs the same. -/
theorem cost_mirror (free : α → α → Bool) {as bs : List α} (e : Edit as bs) :
    e.mirror.cost (flip free) = e.cost free := by
  induction e with
  | done => rfl
  | pair a b e ih => rw [mirror, cost, cost, ih]; rfl
  | insert b e ih => rw [mirror, cost, cost, ih]
  | delete a e ih => rw [mirror, cost, cost, ih]

theorem cost_insertAll (free : α → α → Bool) (bs : List α) :
    (insertAll bs).cost free = 2 * bs.length := by
  induction bs with
  | nil => rfl
  | cons b bs ih => rw [insertAll, cost, ih, List.length_cons]; omega

/-- **The cost in place**: 3 for each position whose pair is not free, and 2 for each element beyond
the end of the other sequence. -/
theorem cost_inPlace (free : α → α → Bool) (as bs : List α) :
    (inPlace as bs).cost free
      = 3 * (as.zip bs).countP (fun p => !free p.1 p.2)
        + 2 * (as.length - bs.length) + 2 * (bs.length - as.length) := by
  induction as generalizing bs with
  | nil => simp [inPlace, cost_insertAll]
  | cons a as ih =>
    cases bs with
    | nil => rw [inPlace, cost, ih]; simp; omega
    | cons b bs =>
      rw [inPlace, cost, ih, List.zip_cons_cons, List.countP_cons, List.length_cons,
        List.length_cons, Nat.add_sub_add_right, Nat.add_sub_add_right]
      cases free a b
      · simp; omega
      · simp

/-- Whatever the pairs are, the edit in place costs at most 3 for each position that both sequences
have. -/
theorem cost_inPlace_le (free : α → α → Bool) (as bs : List α) :
    (inPlace as bs).cost free
      ≤ 3 * min as.length bs.length + 2 * (as.length - bs.length)
        + 2 * (bs.length - as.length) := by
  have hcount := List.countP_le_length (p := fun p : α × α => !free p.1 p.2) (l := as.zip bs)
  rw [List.length_zip] at hcount
  rw [cost_inPlace]
  omega

/-- Sequences of one length are edited in place before what follows them. -/
theorem cost_inPlace_append (free : α → α → Bool) {as bs : List α} (hlen : as.length = bs.length)
    (as' bs' : List α) :
    (inPlace (as ++ as') (bs ++ bs')).cost free
      = (inPlace as bs).cost free + (inPlace as' bs').cost free := by
  induction as generalizing bs with
  | nil =>
    obtain rfl := List.eq_nil_of_length_eq_zero hlen.symm
    exact (Nat.zero_add _).symm
  | cons a as ih =>
    cases bs with
    | nil => exact absurd hlen (Nat.succ_ne_zero _)
    | cons b bs =>
      rw [List.cons_append, List.cons_append, inPlace, inPlace, cost, cost,
        ih (Nat.succ.inj hlen), Nat.add_assoc]

/-- No edit costs less than what the lengths differ by. -/
theorem length_sub_le_cost (free : α → α → Bool) {as bs : List α} (e : Edit as bs) :
    2 * (as.length - bs.length) + 2 * (bs.length - as.length) ≤ e.cost free := by
  induction e with
  | done => exact Nat.zero_le _
  | pair a b e ih => rw [cost, List.length_cons, List.length_cons]; omega
  | insert b e ih => rw [cost, List.length_cons]; omega
  | delete a e ih => rw [cost, List.length_cons]; omega

/-- **Leaving out an original element costs 2 at most**: its partner, if it has one, stands alone
then. -/
theorem exists_cost_le_of_cons_left (free : α → α → Bool) {a : α} {as bs : List α}
    (e : Edit (a :: as) bs) : ∃ e' : Edit as bs, e'.cost free ≤ 2 + e.cost free := by
  induction bs with
  | nil =>
    cases e with
    | delete _ e => exact ⟨e, by rw [cost]; omega⟩
  | cons b bs ih =>
    cases e with
    | pair _ _ e => exact ⟨.insert b e, by rw [cost, cost]; omega⟩
    | insert _ e =>
      obtain ⟨e', he'⟩ := ih e
      exact ⟨.insert b e', by rw [cost, cost]; omega⟩
    | delete _ e => exact ⟨e, by rw [cost]; omega⟩

/-- Leaving out an updated element costs 2 at most. -/
theorem exists_cost_le_of_cons_right (free : α → α → Bool) {as : List α} {b : α} {bs : List α}
    (e : Edit as (b :: bs)) : ∃ e' : Edit as bs, e'.cost free ≤ 2 + e.cost free := by
  obtain ⟨e', he'⟩ := exists_cost_le_of_cons_left (flip free) e.mirror
  refine ⟨e'.mirror, ?_⟩
  rw [cost_mirror] at he'
  exact (cost_mirror (flip free) e').trans_le he'

/-- What an edit costs depends on which pairs of its elements are free. -/
theorem cost_congr {free free' : α → α → Bool} {as bs : List α} (e : Edit as bs)
    (h : ∀ a ∈ as, ∀ b ∈ bs, free a b = free' a b) : e.cost free = e.cost free' := by
  induction e with
  | done => rfl
  | pair a b e ih =>
    rw [cost, cost, h a List.mem_cons_self b List.mem_cons_self, ih (fun a' ha' b' hb' =>
      h a' (List.mem_cons_of_mem _ ha') b' (List.mem_cons_of_mem _ hb'))]
  | insert b e ih =>
    rw [cost, cost, ih (fun a' ha' b' hb' => h a' ha' b' (List.mem_cons_of_mem _ hb'))]
  | delete a e ih =>
    rw [cost, cost, ih (fun a' ha' b' hb' => h a' (List.mem_cons_of_mem _ ha') b' hb')]

/-- **Costs only depend on which pairs are free**: the edits of two sequences of pictures cost what
the edits of the sequences do. -/
theorem exists_cost_eq_of_map {f g : α → β} {free : α → α → Bool} {free' : β → β → Bool}
    {xs ys : List β} (e : Edit xs ys) {as bs : List α} (has : xs = as.map f) (hbs : ys = bs.map g)
    (h : ∀ a ∈ as, ∀ b ∈ bs, free a b = free' (f a) (g b)) :
    ∃ e' : Edit as bs, e'.cost free = e.cost free' := by
  induction e generalizing as bs with
  | done =>
    obtain rfl := List.map_eq_nil_iff.mp has.symm
    obtain rfl := List.map_eq_nil_iff.mp hbs.symm
    exact ⟨.done, rfl⟩
  | pair x y e ih =>
    obtain ⟨a, as, rfl, rfl, rfl⟩ := List.map_eq_cons_iff.mp has.symm
    obtain ⟨b, bs, rfl, rfl, rfl⟩ := List.map_eq_cons_iff.mp hbs.symm
    obtain ⟨e', he'⟩ := ih rfl rfl (fun a' ha' b' hb' =>
      h a' (List.mem_cons_of_mem _ ha') b' (List.mem_cons_of_mem _ hb'))
    refine ⟨.pair a b e', ?_⟩
    rw [cost, cost, he', h a List.mem_cons_self b List.mem_cons_self]
  | insert y e ih =>
    obtain ⟨b, bs, rfl, rfl, rfl⟩ := List.map_eq_cons_iff.mp hbs.symm
    obtain ⟨e', he'⟩ := ih has rfl (fun a' ha' b' hb' =>
      h a' ha' b' (List.mem_cons_of_mem _ hb'))
    exact ⟨.insert b e', by rw [cost, cost, he']⟩
  | delete x e ih =>
    obtain ⟨a, as, rfl, rfl, rfl⟩ := List.map_eq_cons_iff.mp has.symm
    obtain ⟨e', he'⟩ := ih rfl hbs (fun a' ha' b' hb' =>
      h a' (List.mem_cons_of_mem _ ha') b' hb')
    exact ⟨.delete a e', by rw [cost, cost, he']⟩

/-- The pictures of two sequences cost in place what the sequences do. -/
theorem cost_inPlace_map {f g : α → β} {free : α → α → Bool} {free' : β → β → Bool}
    {as bs : List α} (h : ∀ a ∈ as, ∀ b ∈ bs, free a b = free' (f a) (g b)) :
    (inPlace (as.map f) (bs.map g)).cost free' = (inPlace as bs).cost free := by
  rw [cost_inPlace, cost_inPlace, List.zip_map, List.countP_map, List.length_map, List.length_map]
  refine congrArg (fun k => 3 * k + _ + _) (List.countP_congr (fun p hp => ?_))
  obtain ⟨ha, hb⟩ := List.of_mem_zip hp
  rw [h p.1 ha p.2 hb]
  rfl

/-- The pictures of an edit's elements are edited at the same cost. -/
theorem exists_map_cost_eq {f : α → β} {free : α → α → Bool} {free' : β → β → Bool}
    {as bs : List α} (e : Edit as bs) (h : ∀ a ∈ as, ∀ b ∈ bs, free a b = free' (f a) (f b)) :
    ∃ e' : Edit (as.map f) (bs.map f), e'.cost free' = e.cost free := by
  induction e with
  | done => exact ⟨.done, rfl⟩
  | pair a b e ih =>
    obtain ⟨e', he'⟩ := ih (fun a' ha' b' hb' =>
      h a' (List.mem_cons_of_mem _ ha') b' (List.mem_cons_of_mem _ hb'))
    refine ⟨.pair (f a) (f b) e', ?_⟩
    rw [cost, cost, he', h a List.mem_cons_self b List.mem_cons_self]
  | insert b e ih =>
    obtain ⟨e', he'⟩ := ih (fun a' ha' b' hb' => h a' ha' b' (List.mem_cons_of_mem _ hb'))
    exact ⟨.insert (f b) e', by rw [cost, cost, he']⟩
  | delete a e ih =>
    obtain ⟨e', he'⟩ := ih (fun a' ha' b' hb' => h a' (List.mem_cons_of_mem _ ha') b' hb')
    exact ⟨.delete (f a) e', by rw [cost, cost, he']⟩

end Edit

/-! ## The alignment is the plan of a cheapest edit -/

/-- Whether a classifier finds no difference. -/
def isFree (classify : α → α → String) (a b : α) : Bool := classify a b == Action.equal

variable (classify : α → α → String)

theorem pairCost_eq (a b : α) :
    pairCost (classify a b) = if isFree classify a b then 0 else 3 := by
  simp [pairCost, isFree]

theorem Plan.cost_pair (a b : α) (p : Plan α) :
    (Plan.pair (classify a b) a b p).cost = (if isFree classify a b then 0 else 3) + p.cost := by
  rw [Plan.pair, pairCost_eq]
  exact Nat.add_comm _ _

omit classify in
theorem Plan.cost_append (b : α) (p : Plan α) : (Plan.append b p).cost = 2 + p.cost :=
  Nat.add_comm _ _

omit classify in
theorem Plan.cost_insert (b : α) (p : Plan α) : (Plan.insert b p).cost = 2 + p.cost :=
  Nat.add_comm _ _

omit classify in
theorem Plan.cost_delete (a : α) (p : Plan α) : (Plan.delete a p).cost = 2 + p.cost :=
  Nat.add_comm _ _

/-- A plan costs what its edit does. -/
theorem cost_plan {as bs : List α} (e : Edit as bs) :
    (e.plan classify).cost = e.cost (isFree classify) := by
  induction e with
  | done => rfl
  | pair a b e ih => rw [Edit.plan, Edit.cost, Plan.cost_pair, ih]
  | @insert b as bs e ih =>
    cases as with
    | nil => rw [Edit.plan, Edit.cost, Plan.cost_append, ih]
    | cons a as => rw [Edit.plan, Edit.cost, Plan.cost_insert, ih]
  | delete a e ih => rw [Edit.plan, Edit.cost, Plan.cost_delete, ih]

theorem plan_insertAll (bs : List α) : (Edit.insertAll bs).plan classify = appendAll bs := by
  induction bs with
  | nil => rfl
  | cons b bs ih => rw [Edit.insertAll, Edit.plan, ih, appendAll]

theorem best_nil_left (bs : List α) : best classify [] bs = appendAll bs := rfl

theorem best_nil_right (a : α) (as : List α) :
    best classify (a :: as) [] = Plan.delete a (best classify as []) := rfl

theorem best_cons (a : α) (as : List α) (b : α) (bs : List α) :
    best classify (a :: as) (b :: bs)
      = Plan.choose (Plan.pair (classify a b) a b (best classify as bs))
          (Plan.insert b (best classify (a :: as) bs))
          (Plan.delete a (best classify as (b :: bs))) := rfl

/-- A choice is one of its three plans. -/
theorem choose_cases (p q r : Plan α) :
    Plan.choose p q r = p ∨ Plan.choose p q r = q ∨ Plan.choose p q r = r := by
  unfold Plan.choose
  split
  · exact Or.inl rfl
  · split
    · exact Or.inr (Or.inl rfl)
    · exact Or.inr (Or.inr rfl)

/-- A choice costs no more than any of its three plans. -/
theorem cost_choose_le (p q r : Plan α) :
    (Plan.choose p q r).cost ≤ p.cost ∧ (Plan.choose p q r).cost ≤ q.cost
      ∧ (Plan.choose p q r).cost ≤ r.cost := by
  unfold Plan.choose
  split
  · next h => exact ⟨le_rfl, h.1, h.2⟩
  · split <;> omega

/-- **The alignment is the plan of an edit.** -/
theorem exists_plan_eq_best (as bs : List α) :
    ∃ e : Edit as bs, e.plan classify = best classify as bs := by
  induction as generalizing bs with
  | nil => exact ⟨Edit.insertAll bs, plan_insertAll classify bs⟩
  | cons a as iha =>
    induction bs with
    | nil =>
      obtain ⟨e, he⟩ := iha []
      exact ⟨.delete a e, by rw [Edit.plan, he, best_nil_right]⟩
    | cons b bs ihb =>
      rw [best_cons]
      obtain h | h | h := choose_cases (Plan.pair (classify a b) a b (best classify as bs))
        (Plan.insert b (best classify (a :: as) bs)) (Plan.delete a (best classify as (b :: bs)))
      · obtain ⟨e, he⟩ := iha bs
        exact ⟨.pair a b e, by rw [h, Edit.plan, he]⟩
      · obtain ⟨e, he⟩ := ihb
        exact ⟨.insert b e, by rw [h, Edit.plan, he]⟩
      · obtain ⟨e, he⟩ := iha (b :: bs)
        exact ⟨.delete a e, by rw [h, Edit.plan, he]⟩

/-- One more inserted element costs at most 2 more. -/
theorem cost_best_insert_le (as : List α) (b : α) (bs : List α) :
    (best classify as (b :: bs)).cost ≤ 2 + (best classify as bs).cost := by
  cases as with
  | nil => rw [best_nil_left, appendAll, Plan.cost_append, best_nil_left]
  | cons a as =>
    rw [best_cons, ← Plan.cost_insert]
    exact (cost_choose_le _ _ _).2.1

/-- One more deleted element costs at most 2 more. -/
theorem cost_best_delete_le (a : α) (as bs : List α) :
    (best classify (a :: as) bs).cost ≤ 2 + (best classify as bs).cost := by
  cases bs with
  | nil => rw [best_nil_right, Plan.cost_delete]
  | cons b bs =>
    rw [best_cons, ← Plan.cost_delete]
    exact (cost_choose_le _ _ _).2.2

/-- One more pair costs at most what the pair costs. -/
theorem cost_best_pair_le (a : α) (as : List α) (b : α) (bs : List α) :
    (best classify (a :: as) (b :: bs)).cost
      ≤ (if isFree classify a b then 0 else 3) + (best classify as bs).cost := by
  rw [best_cons, ← Plan.cost_pair]
  exact (cost_choose_le _ _ _).1

/-- **No edit costs less than the alignment.** -/
theorem best_cost_le_cost {as bs : List α} (e : Edit as bs) :
    (best classify as bs).cost ≤ e.cost (isFree classify) := by
  induction e with
  | done => exact le_rfl
  | pair a b e ih =>
    exact (cost_best_pair_le classify a _ b _).trans (Nat.add_le_add_left ih _)
  | insert b e ih => exact (cost_best_insert_le classify _ b _).trans (Nat.add_le_add_left ih _)
  | delete a e ih => exact (cost_best_delete_le classify a _ _).trans (Nat.add_le_add_left ih _)

/-- A bound holds of the cost of the alignment when it holds of the cost of every edit. -/
theorem le_cost_best_iff {as bs : List α} {k : Nat} :
    k ≤ (best classify as bs).cost ↔ ∀ e : Edit as bs, k ≤ e.cost (isFree classify) := by
  constructor
  · exact fun h e => h.trans (best_cost_le_cost classify e)
  · intro h
    obtain ⟨e, he⟩ := exists_plan_eq_best classify as bs
    rw [← he, cost_plan]
    exact h e

/-! ## A free pair at the front -/

/-- One original element less saves at most 2. -/
theorem cost_best_le_cons_left (a : α) (as bs : List α) :
    (best classify as bs).cost ≤ 2 + (best classify (a :: as) bs).cost := by
  obtain ⟨e, he⟩ := exists_plan_eq_best classify (a :: as) bs
  obtain ⟨e', he'⟩ := e.exists_cost_le_of_cons_left (isFree classify)
  rw [← he, cost_plan]
  exact (best_cost_le_cost classify e').trans he'

/-- One updated element less saves at most 2. -/
theorem cost_best_le_cons_right (as : List α) (b : α) (bs : List α) :
    (best classify as bs).cost ≤ 2 + (best classify as (b :: bs)).cost := by
  obtain ⟨e, he⟩ := exists_plan_eq_best classify as (b :: bs)
  obtain ⟨e', he'⟩ := e.exists_cost_le_of_cons_right (isFree classify)
  rw [← he, cost_plan]
  exact (best_cost_le_cost classify e').trans he'

/-- **A free pair is taken at once**: what comes after an insertion or a deletion is cheaper by no
more than that step costs. -/
theorem best_cons_of_isFree {a b : α} (hab : isFree classify a b = true) (as bs : List α) :
    best classify (a :: as) (b :: bs) = Plan.pair Action.equal a b (best classify as bs) := by
  have hinsert := cost_best_le_cons_left classify a as bs
  have hdelete := cost_best_le_cons_right classify as b bs
  have hname : classify a b = Action.equal := beq_iff_eq.mp hab
  rw [best_cons, Plan.choose, if_pos, hname]
  rw [Plan.cost_pair, Plan.cost_insert, Plan.cost_delete, if_pos hab]
  exact ⟨by omega, by omega⟩

/-! ## The edit in place -/

/-- The changes in place: the pairs, and then what one sequence has more than the other. -/
theorem changes_inPlace (as bs : List α) :
    ((Edit.inPlace as bs).plan classify).changes
      = (as.zip bs).map (fun p => ⟨classify p.1 p.2, some p.1, some p.2⟩)
        ++ (as.drop bs.length).map (fun a => ⟨Action.delete, some a, none⟩)
        ++ (bs.drop as.length).map (fun b => ⟨Action.append, none, some b⟩) := by
  induction as generalizing bs with
  | nil =>
    rw [Edit.inPlace, plan_insertAll]
    induction bs with
    | nil => rfl
    | cons b bs ih => simpa [appendAll, Plan.append] using ih
  | cons a as ih =>
    cases bs with
    | nil => simpa [Edit.inPlace, Edit.plan, Plan.delete] using ih []
    | cons b bs => simpa [Edit.inPlace, Edit.plan, Plan.pair] using ih bs

/-- **The edit in place is chosen as soon as nothing is cheaper**: among first steps that lead to
the same cost the pair comes first. -/
theorem best_eq_inPlace {as bs : List α}
    (h : (Edit.inPlace as bs).cost (isFree classify) ≤ (best classify as bs).cost) :
    best classify as bs = (Edit.inPlace as bs).plan classify := by
  induction as generalizing bs with
  | nil => rw [best_nil_left, Edit.inPlace, plan_insertAll]
  | cons a as ih =>
    cases bs with
    | nil =>
      rw [Edit.inPlace, Edit.cost, best_nil_right, Plan.cost_delete] at h
      rw [best_nil_right, ih (by omega), Edit.inPlace, Edit.plan]
    | cons b bs =>
      rw [Edit.inPlace, Edit.cost] at h
      have hrest := cost_best_pair_le classify a as b bs
      -- the rests are in place too, for what is saved on them would be saved on the whole
      have hpair : best classify (a :: as) (b :: bs)
          = Plan.pair (classify a b) a b (best classify as bs) := by
        have hmin := best_cost_le_cost classify (Edit.inPlace as bs)
        rw [best_cons] at h ⊢
        obtain ⟨-, hq, hr⟩ := cost_choose_le (Plan.pair (classify a b) a b (best classify as bs))
          (Plan.insert b (best classify (a :: as) bs)) (Plan.delete a (best classify as (b :: bs)))
        rw [Plan.choose, if_pos]
        rw [Plan.cost_pair]
        exact ⟨by omega, by omega⟩
      rw [hpair, ih (by omega), Edit.inPlace, Edit.plan]

/-- **Without an insertion and without a deletion the alignment is in place**, and the updated
sequence is at least as long as the original one. -/
theorem best_eq_inPlace_of_actions {as bs : List α}
    (h : ∀ c ∈ (best classify as bs).changes,
      c.action ≠ Action.insert ∧ c.action ≠ Action.delete) :
    as.length ≤ bs.length ∧ best classify as bs = (Edit.inPlace as bs).plan classify := by
  induction as generalizing bs with
  | nil => exact ⟨Nat.zero_le _, by rw [best_nil_left, Edit.inPlace, plan_insertAll]⟩
  | cons a as ih =>
    cases bs with
    | nil => exact absurd rfl (h _ (List.mem_cons_self)).2
    | cons b bs =>
      rw [best_cons] at h ⊢
      obtain hc | hc | hc := choose_cases (Plan.pair (classify a b) a b (best classify as bs))
        (Plan.insert b (best classify (a :: as) bs)) (Plan.delete a (best classify as (b :: bs)))
      · rw [hc] at h ⊢
        obtain ⟨hlen, hrest⟩ := ih (fun c hmem => h c (List.mem_cons_of_mem _ hmem))
        exact ⟨Nat.succ_le_succ hlen, by rw [hrest, Edit.inPlace, Edit.plan]⟩
      · rw [hc] at h
        exact absurd rfl (h _ (List.mem_cons_self)).1
      · rw [hc] at h
        exact absurd rfl (h _ (List.mem_cons_self)).2

end SlotSafe.Alignment
