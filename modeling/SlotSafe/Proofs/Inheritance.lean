import Mathlib.Data.List.Nodup
import SlotSafe.Proofs.Bases
import SlotSafe.Proofs.Insertions

/-!
# A contract extends the layouts of its bases

The linearization of a contract that inherits another one often ends in that of the base. Storage is
given out from that end, so **the base's layout then stands unchanged at the start of the
contract's**, and going from one to the other is a safe upgrade that only adds variables
(`linearizedLayout_of_inherits`).

Two things might disturb this. A contract finds itself by its own number and all others in a table,
so the base must be found the same way from outside as from inside, which it is when numbers tell
contracts apart (`base_eq_ok_iff`). And the contract's own types are written over those of its
bases, which changes none of them where types agree.
-/

namespace SlotSafe

namespace Upgrade

/-- **A layout extends another one**: its variables begin with those of the other, and going from
the other layout to this one pairs each of them with itself, finds no difference and is safe. -/
structure Extends [NestingLimits] (updated original : Layout) : Prop where
  items : original.items <+: updated.items
  comparable : mustCompare original updated = .ok ()
  operations : operations original updated
    = original.items.map fun item => ⟨Action.equal, some item, some item⟩
  safe : check original updated = .ok ()

variable {original updated : Layout}

/-- More variables behind the same ones extend a layout if the types of those have kept their
labels. -/
theorem extends_of_prefix [NestingLimits] (hitems : original.items <+: updated.items)
    (hcomparable : mustCompare original updated = .ok ())
    (hsame : ∀ item ∈ original.items, sameField original updated item item = true) :
    Extends updated original := by
  have htake := List.prefix_iff_eq_take.mp hitems
  have hstart : List.Forall₂ (fun o u => sameField original updated o u = true) original.items
      (updated.items.take original.items.length) := by
    rw [← htake]
    exact List.forall₂_same.mpr hsame
  obtain ⟨hoperations, hsafe⟩ := operations_of_prefix hstart
  refine ⟨hitems, hcomparable, ?_, hsafe⟩
  have hzip : original.items.zip updated.items = original.items.zip original.items := by
    rw [List.zip_eq_zip_take_min, Nat.min_eq_left hitems.length_le, List.take_length, ← htake]
  rw [hoperations, hzip, List.map_zip_eq_zipWith, List.zipWith_self]
  rfl

end Upgrade

namespace Extraction

open Upgrade

variable {dss ess : List (List Declaration)}

/-- Names and labels of joined layouts are texts, so they can be compared. -/
theorem mustCompare_concat [NestingLimits] (hdss : KeysAgree dss.flatten)
    (hess : KeysAgree ess.flatten) :
    mustCompare (.concat (dss.map layoutOf)) (.concat (ess.map layoutOf)) = .ok () := by
  refine if_pos (List.all_eq_true.mpr (fun o ho => List.all_eq_true.mpr (fun u hu => ?_)))
  rw [items_concat] at ho hu
  obtain ⟨d, hd, rfl⟩ := List.mem_map.mp ho
  obtain ⟨e, he, rfl⟩ := List.mem_map.mp hu
  beta_reduce
  rw [labelOf_concat hdss hd, labelOf_concat hess he, Document.comparesWithin_of_isText rfl,
    Document.comparesWithin_of_isText rfl]
  rfl

/-- **Joining more layouts extends what is joined first**, where declarations with one type key have
one type. -/
theorem concat_extends_take [NestingLimits] (hagree : KeysAgree dss.flatten) (n : Nat) :
    Extends (.concat (dss.map layoutOf)) (.concat ((dss.take n).map layoutOf)) := by
  have hstart : (dss.take n).flatten <+: dss.flatten := by
    conv_rhs => rw [← List.take_append_drop n dss, List.flatten_append]
    exact List.prefix_append _ _
  have hagree' : KeysAgree (dss.take n).flatten := fun d hd e he =>
    hagree d (hstart.subset hd) e (hstart.subset he)
  refine extends_of_prefix ?_ (mustCompare_concat hagree' hagree) (fun item hitem => ?_)
  · rw [items_concat, items_concat]
    exact hstart.map Declaration.item
  · rw [items_concat] at hitem
    obtain ⟨d, hd, rfl⟩ := List.mem_map.mp hitem
    rw [sameField, sameType, labelOf_concat hagree' hd, labelOf_concat hagree (hstart.subset hd)]
    simp [Declaration.item]

end Extraction

namespace Compilation

open Extraction

/-! ## Finding bases -/

/-- **Every contract definition has a number, and no two have the same.** -/
structure DistinctNumbers (defs : List (Document × Document)) : Prop where
  number : ∀ found ∈ defs, ∃ n : Int, found.2.at? "id" = some (.int n)
  distinct : (defs.map fun found => found.2.at? "id").Nodup

/-- What a contract definition is entered by. -/
def entryById (found : Document × Document) : Option (Document × Document) :=
  (found.2.at? "id").map (·, found.2)

theorem enterById_eq_ok {known t : Table Document} {defs : List (Document × Document)}
    (h : enterById known defs = .ok t) : t = known.insertAll (defs.filterMap entryById) := by
  induction defs generalizing known with
  | nil => exact (Except.ok.inj h).symm
  | cons found rest ih =>
    obtain ⟨path, node⟩ := found
    obtain ⟨mentioned, hmentioned, h⟩ := bind_eq_ok_iff.mp h
    cases mentioned with
    | false =>
      have hentry : entryById (path, node) = none := by
        rw [entryById, Document.at?_of_mentions hmentioned]
        rfl
      rw [List.filterMap_cons_none hentry]
      exact ih h
    | true =>
      obtain ⟨id, hid, h⟩ := bind_eq_ok_iff.mp h
      rw [Document.member_eq_ok_iff] at hid
      have hentry : entryById (path, node) = some (id, node) := by
        rw [entryById, hid]
        rfl
      rw [List.filterMap_cons_some hentry]
      split at h
      · exact ih h
      · exact absurd h (by simp)

variable {output b d : Document} {defs : List (Document × Document)} {known : Table Document}

/-- **A contract definition is found by its number.** -/
theorem find?_of_mem (hknown : definitionsById output = .ok known)
    (hdefs : definitions output = .ok defs) (hnumbers : DistinctNumbers defs)
    (hd : d ∈ defs.map Prod.snd) {n : Int} (hn : d.at? "id" = some (.int n)) :
    known.find? (.int n) = some d := by
  obtain ⟨defs', hdefs', hknown⟩ := bind_eq_ok_iff.mp hknown
  obtain rfl := Except.ok.inj (hdefs.symm.trans hdefs')
  obtain ⟨found, hfound, rfl⟩ := List.mem_map.mp hd
  rw [enterById_eq_ok hknown]
  refine Table.find?_ofList ⟨(.int n, found.2), ?_, ?_⟩ ?_
  · refine List.mem_filterMap.mpr ⟨found, hfound, ?_⟩
    rw [entryById, hn]
    rfl
  · simp [Document.sameKey, Document.key?]
  · -- what is entered under the same number has the same number, so it is the same definition
    intro entry hentry hkey
    obtain ⟨other, hother, hentry⟩ := List.mem_filterMap.mp hentry
    obtain ⟨m, hm⟩ := hnumbers.number other hother
    rw [entryById, hm] at hentry
    obtain rfl := Option.some.inj hentry
    have hnm : n = m := by simpa [Document.sameKey, Document.key?] using hkey
    have hsame : other = found :=
      List.inj_on_of_nodup_map hnumbers.distinct hother hfound (by rw [hm, hn, hnm])
    rw [hsame]

theorem exists_number (hnumbers : DistinctNumbers defs) (hd : d ∈ defs.map Prod.snd) :
    ∃ n : Int, d.at? "id" = some (.int n) := by
  obtain ⟨found, hfound, rfl⟩ := List.mem_map.mp hd
  exact hnumbers.number found hfound

/-- **A base is found the same way from every contract**, by its number in the table. -/
theorem base_eq_ok_iff [NestingLimits] {n : Int} (hn : d.at? "id" = some (.int n))
    (hfind : known.find? (.int n) = some d) {id x : Document} :
    base known d id = .ok x ↔ known.find? id = some x := by
  have hown : d.memberOrNull "id" = .ok (.int n) := Document.memberOrNull_of_at? hn
  constructor
  · intro h
    obtain ⟨own, hown', h⟩ := bind_eq_ok_iff.mp h
    obtain rfl := Except.ok.inj (hown.symm.trans hown')
    rw [Document.beq_eq_sameKey id (Or.inr ⟨n, rfl⟩)] at h
    split at h
    · next hsame =>
      rw [Table.find?_congr hsame, hfind]
      exact congrArg some (Except.ok.inj h)
    · obtain ⟨found, hlook, h⟩ := bind_eq_ok_iff.mp h
      obtain ⟨-, rfl⟩ := Document.lookUp_eq_ok_iff.mp hlook
      cases hfound : known.find? id with
      | some found =>
        rw [hfound] at h
        exact congrArg some (Except.ok.inj h)
      | none =>
        -- what is missing ends in an error, whatever else goes wrong on the way to it
        rw [hfound] at h
        obtain ⟨missing, -, h⟩ := bind_eq_ok_iff.mp h
        obtain ⟨name, -, h⟩ := bind_eq_ok_iff.mp h
        obtain ⟨shown, -, h⟩ := bind_eq_ok_iff.mp h
        exact absurd h (by simp)
  · intro h
    refine bind_eq_ok_iff.mpr ⟨_, hown, ?_⟩
    rw [Document.beq_eq_sameKey id (Or.inr ⟨n, rfl⟩)]
    split
    · next hsame =>
      rw [Table.find?_congr hsame, hfind] at h
      exact congrArg Except.ok (Option.some.inj h)
    · obtain ⟨entry, -, hkey, -⟩ := Table.exists_of_find? h
      exact bind_eq_ok_iff.mpr ⟨some x, Document.lookUp_eq_ok_iff.mpr
        ⟨Document.isKey_of_sameKey hkey, h⟩, rfl⟩

/-- **A contract inherits another one at the end of its linearization.** -/
def Inherits (d b : Document) : Prop :=
  ∃ (i j : Option Identity) (front ids : List Document), ids ≠ []
    ∧ b.member "linearizedBaseContracts" = .ok (.list i ids)
    ∧ d.member "linearizedBaseContracts" = .ok (.list j (front ++ ids))

theorem baseIds_of_list {i : Option Identity} {ids : List Document} (hne : ids ≠ [])
    (h : d.member "linearizedBaseContracts" = .ok (.list i ids)) :
    baseIds d = .ok ids.reverse := by
  have hset : (Document.list i ids).isSet = true := by
    cases ids with
    | nil => exact absurd rfl hne
    | cons id rest => rfl
  refine bind_eq_ok_iff.mpr ⟨_, Document.memberOrNull_of_at? (Document.member_eq_ok_iff.mp h), ?_⟩
  rw [if_pos hset]
  rfl

variable {locate : Document → Logged Document}

/-- **The bases of a contract that inherits another one begin with those of the other.** -/
theorem exists_bases_of_inherits [NestingLimits] (hdefs : definitions output = .ok defs)
    (hnumbers : DistinctNumbers defs) (hb : b ∈ defs.map Prod.snd) (hd : d ∈ defs.map Prod.snd)
    (hinherits : Inherits d b) {bs : List Document} (h : bases output d = .ok bs) :
    ∃ n, bases output b = .ok (bs.take n) := by
  obtain ⟨i, j, own, ids, hne, hbids, hdids⟩ := hinherits
  obtain ⟨known, hknown, h⟩ := bind_eq_ok_iff.mp h
  obtain ⟨ids', hids', h⟩ := bind_eq_ok_iff.mp h
  rw [baseIds_of_list (List.append_ne_nil_of_right_ne_nil own hne) hdids,
    List.reverse_append] at hids'
  obtain rfl := Except.ok.inj hids'
  -- the walk starts at the end, so what both linearizations end in comes first in both
  obtain ⟨m, hm⟩ := exists_number hnumbers hb
  obtain ⟨n, hn⟩ := exists_number hnumbers hd
  have hfront := List.forall₂_take ids.reverse.length (mapM_eq_ok_iff.mp h)
  rw [List.take_left] at hfront
  refine ⟨ids.reverse.length, bind_eq_ok_iff.mpr ⟨known, hknown, bind_eq_ok_iff.mpr
    ⟨ids.reverse, baseIds_of_list hne hbids, mapM_eq_ok_iff.mpr (hfront.imp (fun id x hx => ?_))⟩⟩⟩
  rw [base_eq_ok_iff hm (find?_of_mem hknown hdefs hnumbers hb hm)]
  exact (base_eq_ok_iff hn (find?_of_mem hknown hdefs hnumbers hd hn)).mp hx

/-- **A contract extends the layout of each contract that it inherits** at the end of its
linearization. If its own layout is found, then so is that of the other, and the first extends the
second. -/
theorem linearizedLayout_of_inherits [NestingLimits] {vs : List (Document × Document)} {l : Layout}
    (hdefs : definitions output = .ok defs) (hnumbers : DistinctNumbers defs)
    (hb : b ∈ defs.map Prod.snd) (hd : d ∈ defs.map Prod.snd) (hinherits : Inherits d b)
    (hvs : keptVariables output d = .ok vs) (hagree : TypesAgree vs)
    (h : (linearizedLayout output d locate).result = .ok l) :
    ∃ first, (linearizedLayout output b locate).result = .ok first ∧ Upgrade.Extends l first := by
  obtain ⟨bs, layouts, hbases, hlayouts, rfl⟩ := linearizedLayout_eq_ok_iff.mp h
  obtain ⟨n, hfront⟩ := exists_bases_of_inherits hdefs hnumbers hb hd hinherits hbases
  obtain ⟨vs', dss, hvs', hdss, rfl⟩ := exists_declarations_of_bases hlayouts
  obtain rfl : vs = vs' := by
    obtain ⟨bs', hbases', hvs⟩ := bind_eq_ok_iff.mp hvs
    obtain rfl := Except.ok.inj (hbases.symm.trans hbases')
    exact Except.ok.inj (hvs.symm.trans hvs')
  refine ⟨_, linearizedLayout_eq_ok_iff.mpr ⟨_, _, hfront, List.forall₂_take n hlayouts, rfl⟩, ?_⟩
  rw [← List.map_take]
  exact concat_extends_take (hagree.keysAgree hdss) n

/-- The token extends its base. -/
theorem linearizedLayout_of_baseNode :
    ∃ l first, (linearizedLayout tokenOutput tokenNode rawReference).result = .ok l
      ∧ (linearizedLayout tokenOutput baseNode rawReference).result = .ok first
      ∧ Upgrade.Extends l first := by
  have hdefs : definitions tokenOutput = .ok [(.text "contracts/Token.sol", baseNode),
      (.text "contracts/Token.sol", tokenNode)] := rfl
  have hnumbers : DistinctNumbers [(.text "contracts/Token.sol", baseNode),
      (.text "contracts/Token.sol", tokenNode)] := by
    refine ⟨List.forall_mem_cons.mpr ⟨⟨1, rfl⟩, List.forall_mem_singleton.mpr ⟨2, rfl⟩⟩, ?_⟩
    change [some (Document.int 1), some (Document.int 2)].Nodup
    simp
  obtain ⟨l, h⟩ : ∃ l, (linearizedLayout tokenOutput tokenNode rawReference).result = .ok l :=
    ⟨_, rfl⟩
  obtain ⟨vs, hvs, -, hagree⟩ := exists_keptVariables_tokenNode
  have hinherits : Inherits tokenNode baseNode :=
    ⟨none, none, [.int 2], [.int 1], by simp, rfl, rfl⟩
  obtain ⟨first, hfirst, hextends⟩ := linearizedLayout_of_inherits hdefs hnumbers (by simp)
    (by simp) hinherits hvs hagree h
  exact ⟨l, first, h, hfirst, hextends⟩

end Compilation

end SlotSafe
