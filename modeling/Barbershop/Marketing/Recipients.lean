import Barbershop.Lib.UnionFind
import Mathlib.Algebra.Order.BigOperators.Group.List
import Mathlib.Data.List.FinRange
import Mathlib.Algebra.Order.Ring.Nat
import Mathlib.Data.Set.Image
import Mathlib.Logic.Equiv.Defs

/-!
# The recipients of a campaign

The records that share an e-mail or a phone, through any chain of records, are one person: a
union-find over the keys groups them, and each group is written to once, with the e-mail and the
phone it has. A group that left the campaigns by one of its e-mails or phones gets no e-mail.
-/

namespace Barbershop

open Lib.UnionFind

/-- A customer's record: how to reach the customer, and its other columns. -/
structure Contact (α : Type) where
  email : Option String
  phone : Option String
  rest : α

/-- What e-mails and phones are compared by. -/
structure Normal where
  /-- `trim().toLowerCase()` -/
  email : String → String
  email_empty : email "" = ""
  /-- `phoneForWhatsapp`, in the country of the unit -/
  phone : String → Option String

/-- The keys of the records: `e:` and the e-mail, `p:` and the phone. -/
inductive ContactKey where
  | email (e : String)
  | phone (p : String)
  deriving DecidableEq

namespace Normal

variable (N : Normal) {α β : Type}

/-- An empty text is no e-mail. -/
def emailOf (c : Contact α) : Option String := (c.email.map N.email).filter (· ≠ "")

/-- An empty text is no phone, before and after. -/
def phoneOf (c : Contact α) : Option String :=
  ((c.phone.filter (· ≠ "")).bind N.phone).filter (· ≠ "")

/-- `all`, without the keys that are absent. -/
def keysOf (c : Contact α) : List ContactKey :=
  (N.emailOf c).toList.map .email ++ (N.phoneOf c).toList.map .phone

/-! ## Groups -/

section Groups

variable (customers : List (Contact α))

/-- There are at most two keys to a record; so many steps lead to every root. -/
def steps : ℕ := 2 * customers.length

/-- The parents and the owners of the keys, after every key of every record. -/
def joined : Owners (Fin customers.length) ContactKey :=
  (List.finRange customers.length).foldl
    (fun g i => (N.keysOf customers[i]).foldl (fun g key => g.link (steps customers) i key) g)
    .start

/-- The values of `groups`. -/
def groups : List (List (Fin customers.length)) :=
  (collect (steps customers) (N.joined customers).parent
    (List.finRange customers.length)).2.map Prod.snd

end Groups

/-! ## One record for each group -/

section Recipients

variable (optedOut : List (Contact β)) (customers : List (Contact α))

/-- The record's e-mail or phone is one that left the campaigns. -/
def leftBy (c : Contact α) : Bool :=
  (N.emailOf c).any (fun e => (optedOut.filterMap N.emailOf).contains e) ||
    (N.phoneOf c).any fun p => (optedOut.filterMap N.phoneOf).contains p

/-- `email`: that of the first member that has one, unless a member left the campaigns by e-mail. -/
def groupEmail (members : List (Fin customers.length)) (first : Contact α) : Option String :=
  let emailOptOut := members.any fun i => N.leftBy optedOut customers[i]
  let withEmail := members.find? fun i => (N.emailOf customers[i]).isSome
  if emailOptOut then none else withEmail.elim first.email fun i => customers[i].email

/-- `phone`: that of the first member that has one. -/
def groupPhone (members : List (Fin customers.length)) (first : Contact α) : Option String :=
  let withPhone := members.find? fun i => (N.phoneOf customers[i]).isSome
  withPhone.elim first.phone fun i => customers[i].phone

/-- `!email && !phone` -/
def unreachable (r : Contact α) : Bool := r.email.all (· = "") && r.phone.all (· = "")

/-- The recipient of a group, if there is a way to reach it. -/
def recipient (members : List (Fin customers.length)) : Option (Contact α) :=
  match members with
  | [] => none
  | m :: rest =>
    let first := customers[m]
    let r : Contact α :=
      { first with
        email := N.groupEmail optedOut customers (m :: rest) first
        phone := N.groupPhone customers (m :: rest) first }
    if unreachable r then none else some r

def uniqueRecipients : List (Contact α) :=
  (N.groups customers).filterMap (N.recipient optedOut customers)

end Recipients

/-! ## What the records are to each other -/

/-- The records have an e-mail or a phone in common. -/
def Shares (c : Contact α) (d : Contact β) : Prop :=
  (∃ e, N.emailOf c = some e ∧ N.emailOf d = some e) ∨
    ∃ p, N.phoneOf c = some p ∧ N.phoneOf d = some p

/-- A chain of shared e-mails and phones leads from one record to the other. -/
def Linked (customers : List (Contact α)) (i j : Fin customers.length) : Prop :=
  Relation.EqvGen (fun i j => N.Shares customers[i] customers[j]) i j

theorem shares_iff {c : Contact α} {d : Contact β} :
    N.Shares c d ↔ ∃ key, key ∈ N.keysOf c ∧ key ∈ N.keysOf d := by
  constructor
  · rintro (⟨e, hc, hd⟩ | ⟨p, hc, hd⟩)
    · exact ⟨.email e, by simp [keysOf, hc], by simp [keysOf, hd]⟩
    · exact ⟨.phone p, by simp [keysOf, hc], by simp [keysOf, hd]⟩
  · rintro ⟨key, hc, hd⟩
    cases key with
    | email e => exact .inl ⟨e, by simpa [keysOf] using hc, by simpa [keysOf] using hd⟩
    | phone p => exact .inr ⟨p, by simpa [keysOf] using hc, by simpa [keysOf] using hd⟩

section Groups

variable {N} {customers : List (Contact α)}

/-- Every key of every record, in order. -/
def occurrences (N : Normal) (customers : List (Contact α)) :
    List (Fin customers.length × ContactKey) :=
  (List.finRange customers.length).flatMap fun i => (N.keysOf customers[i]).map (i, ·)

theorem joined_eq : N.joined customers =
    Owners.linkAll (steps customers) .start (N.occurrences customers) := by
  unfold joined Owners.linkAll occurrences
  rw [List.foldl_flatMap]
  simp only [List.foldl_map]

theorem length_keysOf (c : Contact α) : (N.keysOf c).length ≤ 2 := by
  unfold keysOf
  cases N.emailOf c <;> cases N.phoneOf c <;> simp

theorem length_occurrences (N : Normal) (customers : List (Contact α)) :
    (N.occurrences customers).length ≤ steps customers := by
  unfold occurrences steps
  rw [List.length_flatMap]
  calc _ ≤ ((List.finRange customers.length).map fun _ => 2).sum :=
        List.sum_le_sum fun i _ => by
          rw [List.length_map]
          exact length_keysOf _
    _ = 2 * customers.length := by simp [mul_comm]

theorem sharing_iff {i j : Fin customers.length} :
    Sharing (N.occurrences customers) i j ↔ N.Shares customers[i] customers[j] := by
  have hmem : ∀ (i : Fin customers.length) key,
      (i, key) ∈ N.occurrences customers ↔ key ∈ N.keysOf customers[i] := by
    intro i key
    simp only [occurrences, List.mem_flatMap, List.mem_map, List.mem_finRange, true_and]
    constructor
    · rintro ⟨_, key', hkey, heq⟩
      obtain ⟨rfl, rfl⟩ := Prod.mk.inj heq
      exact hkey
    · exact fun hkey => ⟨i, key, hkey, rfl⟩
  rw [shares_iff]
  simp only [Sharing, hmem]

/-- The groups are the classes of linked records. -/
theorem groups_partition : Partition (fun i j => N.Shares customers[i] customers[j])
    (List.finRange customers.length) (N.groups customers) := by
  have hclasses := linkAll_classes (k := steps customers) (N.length_occurrences customers)
  rw [← joined_eq] at hclasses
  have hrel : Sharing (N.occurrences customers) =
      fun i j => N.Shares customers[i] customers[j] := by
    funext i j
    exact propext sharing_iff
  rw [hrel] at hclasses
  exact collect_partition hclasses (N.length_occurrences customers) _

end Groups

/-! ## The recipient of a group -/

section Recipients

variable {N} {optedOut : List (Contact β)} {customers : List (Contact α)}

theorem leftBy_iff {c : Contact α} :
    N.leftBy optedOut c = true ↔ ∃ o ∈ optedOut, N.Shares o c := by
  simp only [leftBy, Bool.or_eq_true, Option.any_eq_true, List.contains_iff_mem, List.mem_filterMap,
    Shares]
  constructor
  · rintro (⟨e, he, o, ho, hoe⟩ | ⟨p, hp, o, ho, hop⟩)
    · exact ⟨o, ho, .inl ⟨e, hoe, he⟩⟩
    · exact ⟨o, ho, .inr ⟨p, hop, hp⟩⟩
  · rintro ⟨o, ho, ⟨e, hoe, he⟩ | ⟨p, hop, hp⟩⟩
    · exact .inl ⟨e, he, o, ho, hoe⟩
    · exact .inr ⟨p, hp, o, ho, hop⟩

/-- An e-mail that a group gives is a member's, and none of the group left. -/
theorem groupEmail_some {m : Fin customers.length} {rest : List (Fin customers.length)}
    {c : Contact α} {e : String}
    (hc : c.email = N.groupEmail optedOut customers (m :: rest) customers[m])
    (he : N.emailOf c = some e) :
    (∃ i ∈ m :: rest, N.emailOf customers[i] = some e) ∧
      ∀ i ∈ m :: rest, N.leftBy optedOut customers[i] = false := by
  unfold groupEmail at hc
  dsimp only at hc
  split at hc
  · simp [emailOf, hc] at he
  · next hleft =>
    refine ⟨?_, by simpa using hleft⟩
    cases hfind : (m :: rest).find? fun i => (N.emailOf customers[i]).isSome with
    | none =>
      rw [hfind, Option.elim_none] at hc
      exact ⟨m, List.mem_cons_self, by rwa [emailOf, hc] at he⟩
    | some i =>
      rw [hfind, Option.elim_some] at hc
      exact ⟨i, List.mem_of_find?_eq_some hfind, by rwa [emailOf, hc] at he⟩

/-- A phone that a group gives is a member's. -/
theorem groupPhone_some {m : Fin customers.length} {rest : List (Fin customers.length)}
    {c : Contact α} {p : String} (hc : c.phone = N.groupPhone customers (m :: rest) customers[m])
    (hp : N.phoneOf c = some p) : ∃ i ∈ m :: rest, N.phoneOf customers[i] = some p := by
  unfold groupPhone at hc
  dsimp only at hc
  cases hfind : (m :: rest).find? fun i => (N.phoneOf customers[i]).isSome with
  | none =>
    rw [hfind, Option.elim_none] at hc
    exact ⟨m, List.mem_cons_self, by rwa [phoneOf, hc] at hp⟩
  | some i =>
    rw [hfind, Option.elim_some] at hc
    exact ⟨i, List.mem_of_find?_eq_some hfind, by rwa [phoneOf, hc] at hp⟩

/-- A group with an e-mail gives one, unless it left. -/
theorem emailOf_groupEmail {m i : Fin customers.length} {rest : List (Fin customers.length)}
    {c : Contact α} (hc : c.email = N.groupEmail optedOut customers (m :: rest) customers[m])
    (hi : i ∈ m :: rest) (he : (N.emailOf customers[i]).isSome = true)
    (hleft : ∀ i ∈ m :: rest, N.leftBy optedOut customers[i] = false) :
    (N.emailOf c).isSome = true := by
  unfold groupEmail at hc
  dsimp only at hc
  rw [if_neg (by simpa using hleft)] at hc
  cases hfind : (m :: rest).find? fun i => (N.emailOf customers[i]).isSome with
  | none => exact absurd he (List.find?_eq_none.1 hfind i hi)
  | some j =>
    rw [hfind, Option.elim_some] at hc
    have hj := List.find?_some hfind
    rwa [emailOf, ← hc] at hj

/-- A group with a phone gives one. -/
theorem phoneOf_groupPhone {m i : Fin customers.length} {rest : List (Fin customers.length)}
    {c : Contact α} (hc : c.phone = N.groupPhone customers (m :: rest) customers[m])
    (hi : i ∈ m :: rest) (hp : (N.phoneOf customers[i]).isSome = true) :
    (N.phoneOf c).isSome = true := by
  unfold groupPhone at hc
  dsimp only at hc
  cases hfind : (m :: rest).find? fun i => (N.phoneOf customers[i]).isSome with
  | none => exact absurd hp (List.find?_eq_none.1 hfind i hi)
  | some j =>
    rw [hfind, Option.elim_some] at hc
    have hj := List.find?_some hfind
    rwa [phoneOf, ← hc] at hj

/-- A record with an e-mail or a phone can be reached. -/
theorem unreachable_of_key {c : Contact α}
    (h : (N.emailOf c).isSome = true ∨ (N.phoneOf c).isSome = true) : unreachable c = false := by
  rw [unreachable, Bool.and_eq_false_iff]
  refine h.imp (fun he => ?_) fun hp => ?_
  · cases hemail : c.email with
    | none => simp [emailOf, hemail] at he
    | some e =>
      have hne : e ≠ "" := by
        rintro rfl
        simp [emailOf, hemail, N.email_empty] at he
      simpa using hne
  · cases hphone : c.phone with
    | none => simp [phoneOf, hphone] at hp
    | some p =>
      have hne : p ≠ "" := by
        rintro rfl
        simp [phoneOf, hphone, Option.filter] at hp
      simpa using hne

theorem recipient_eq_some {members : List (Fin customers.length)} {r : Contact α}
    (h : N.recipient optedOut customers members = some r) : ∃ m rest, members = m :: rest ∧
      r.email = N.groupEmail optedOut customers (m :: rest) customers[m] ∧
      r.phone = N.groupPhone customers (m :: rest) customers[m] := by
  cases members with
  | nil => cases h
  | cons m rest =>
    refine ⟨m, rest, rfl, ?_⟩
    unfold recipient at h
    dsimp only at h
    split at h
    · cases h
    · obtain rfl := Option.some.inj h
      exact ⟨rfl, rfl⟩

/-- A group that has a phone, or an e-mail and did not leave, has a recipient. -/
theorem recipient_isSome (optedOut : List (Contact β)) {m i : Fin customers.length}
    {rest : List (Fin customers.length)} (hi : i ∈ m :: rest)
    (h : (N.phoneOf customers[i]).isSome = true ∨ ((N.emailOf customers[i]).isSome = true ∧
      ∀ i ∈ m :: rest, N.leftBy optedOut customers[i] = false)) :
    ∃ r, N.recipient optedOut customers (m :: rest) = some r := by
  unfold recipient
  dsimp only
  rw [unreachable_of_key (N := N)]
  · exact ⟨_, rfl⟩
  · rcases h with hp | ⟨he, hleft⟩
    · exact .inr (phoneOf_groupPhone rfl hi hp)
    · exact .inl (emailOf_groupEmail rfl hi he hleft)

/-- A recipient shares no e-mail or phone but those of its group. -/
theorem shares_recipient {γ : Type} {members : List (Fin customers.length)} {r : Contact α}
    {d : Contact γ}
    (h : N.recipient optedOut customers members = some r) (hd : N.Shares r d) :
    ∃ i ∈ members, N.Shares customers[i] d := by
  obtain ⟨m, rest, rfl, hemail, hphone⟩ := recipient_eq_some h
  rcases hd with ⟨e, he, hde⟩ | ⟨p, hp, hdp⟩
  · obtain ⟨⟨i, hi, hie⟩, -⟩ := groupEmail_some hemail he
    exact ⟨i, hi, .inl ⟨e, hie, hde⟩⟩
  · obtain ⟨i, hi, hip⟩ := groupPhone_some hphone hp
    exact ⟨i, hi, .inr ⟨p, hip, hdp⟩⟩

theorem Shares.symm {c : Contact α} {d : Contact β} (h : N.Shares c d) : N.Shares d c :=
  h.imp (fun ⟨e, hc, hd⟩ => ⟨e, hd, hc⟩) fun ⟨p, hc, hd⟩ => ⟨p, hd, hc⟩

/-- Recipients of groups that are apart have nothing in common with records that are linked. -/
theorem apart_recipients {g g' : List (Fin customers.length)} {r r' : Contact α}
    (hapart : ∀ i ∈ g, ∀ j ∈ g', ¬N.Linked customers i j)
    (h : N.recipient optedOut customers g = some r)
    (h' : N.recipient optedOut customers g' = some r') {i j : Fin customers.length}
    (hi : N.Shares r customers[i]) (hj : N.Shares r' customers[j]) : ¬N.Linked customers i j := by
  obtain ⟨a, ha, hai⟩ := shares_recipient h hi
  obtain ⟨b, hb, hbj⟩ := shares_recipient h' hj
  intro hij
  have hai' : N.Linked customers a i := .rel _ _ hai
  have hbj' : N.Linked customers b j := .rel _ _ hbj
  exact hapart a ha b hb ((hai'.trans _ _ _ hij).trans _ _ _ (hbj'.symm))

end Recipients

/-! ## The recipients -/

/-- The recipient has an e-mail or a phone of the group of record `i`. -/
def Represents (customers : List (Contact α)) (i : Fin customers.length) (r : Contact α) : Prop :=
  ∃ j, N.Linked customers i j ∧ N.Shares r customers[j]

/-- No record of the group of record `i` left the campaigns. -/
def Stays (optedOut : List (Contact β)) (customers : List (Contact α)) (i : Fin customers.length) :
    Prop :=
  ∀ j, N.Linked customers i j → ∀ o ∈ optedOut, ¬N.Shares o customers[j]

/-- The groups, as sets of records. -/
def groupSets (customers : List (Contact α)) : Set (Set (Fin customers.length)) :=
  {s | ∃ g ∈ N.groups customers, s = {i | i ∈ g}}

section Main

variable {N} {optedOut : List (Contact β)} {customers : List (Contact α)}

theorem groups_apart : (N.groups customers).Pairwise fun g g' =>
    ∀ i ∈ g, ∀ j ∈ g', ¬N.Linked customers i j :=
  groups_partition.apart

/-- A recipient's group. -/
theorem mem_uniqueRecipients {r : Contact α} : r ∈ N.uniqueRecipients optedOut customers ↔
    ∃ g ∈ N.groups customers, N.recipient optedOut customers g = some r :=
  List.mem_filterMap

/-- The group of a record. -/
theorem exists_group (i : Fin customers.length) : ∃ m rest, (m :: rest) ∈ N.groups customers ∧
    i ∈ m :: rest ∧ ∀ j, j ∈ m :: rest ↔ N.Linked customers i j := by
  obtain ⟨g, hg, hi⟩ := groups_partition.covers i (List.mem_finRange i)
  have hmem := groups_partition.closed g hg i hi
  cases g with
  | nil => cases hi
  | cons m rest =>
    exact ⟨m, rest, hg, hi, fun j => (hmem j).trans (and_iff_right (List.mem_finRange j))⟩

theorem groupSets_eq : N.groupSets customers = {s | ∃ i, s = {j | N.Linked customers i j}} := by
  ext s
  constructor
  · rintro ⟨g, hg, rfl⟩
    obtain ⟨i, hi⟩ := List.exists_mem_of_ne_nil g (groups_partition.nonempty g hg)
    refine ⟨i, Set.ext fun j => ?_⟩
    exact (groups_partition.closed g hg i hi j).trans (and_iff_right (List.mem_finRange j))
  · rintro ⟨i, rfl⟩
    obtain ⟨m, rest, hg, -, hmem⟩ := exists_group (N := N) i
    exact ⟨_, hg, Set.ext fun j => (hmem j).symm⟩

/-- What a recipient is written to by e-mail is of a group of which none left. -/
theorem email_stays {r : Contact α} (hr : r ∈ N.uniqueRecipients optedOut customers) {e : String}
    (he : N.emailOf r = some e) : (∀ o ∈ optedOut, N.emailOf o ≠ some e) ∧
      ∀ i, N.emailOf customers[i] = some e → N.Stays optedOut customers i := by
  obtain ⟨g, hg, hrecipient⟩ := mem_uniqueRecipients.1 hr
  obtain ⟨m, rest, rfl, hemail, -⟩ := recipient_eq_some hrecipient
  obtain ⟨⟨i₀, hi₀, hie⟩, hleft⟩ := groupEmail_some hemail he
  have hstays : ∀ i ∈ m :: rest, ∀ o ∈ optedOut, ¬N.Shares o customers[i] := by
    intro i hi o ho hshares
    have hgone := leftBy_iff.2 ⟨o, ho, hshares⟩
    rw [hleft i hi] at hgone
    cases hgone
  refine ⟨fun o ho hoe => hstays i₀ hi₀ o ho (.inl ⟨e, hoe, hie⟩), fun i hi j hij => ?_⟩
  have hlinked : N.Linked customers i₀ j :=
    (Relation.EqvGen.rel _ _ (.inl ⟨e, hie, hi⟩)).trans _ _ _ hij
  exact hstays j ((groups_partition.closed _ hg i₀ hi₀ j).2 ⟨List.mem_finRange j, hlinked⟩)

/-- No two recipients are of one group. -/
theorem represents_once (i : Fin customers.length) :
    (N.uniqueRecipients optedOut customers).Pairwise fun r r' =>
      ¬(N.Represents customers i r ∧ N.Represents customers i r') := by
  refine List.pairwise_filterMap.2 (groups_apart.imp fun {g g'} hapart r h r' h' => ?_)
  rintro ⟨⟨j, hj, hrj⟩, j', hj', hrj'⟩
  exact apart_recipients hapart h h' hrj hrj' (hj.symm.trans _ _ _ hj')

/-- A recipient that represents a group is the only one. -/
theorem represents_unique {i : Fin customers.length} {r : Contact α}
    (hr : r ∈ N.uniqueRecipients optedOut customers) (hrep : N.Represents customers i r) :
    ∃ k : Fin (N.uniqueRecipients optedOut customers).length,
      (N.uniqueRecipients optedOut customers)[k] = r ∧
      ∀ k' : Fin (N.uniqueRecipients optedOut customers).length,
        N.Represents customers i (N.uniqueRecipients optedOut customers)[k'] → k' = k := by
  obtain ⟨k, hk, rfl⟩ := List.mem_iff_getElem.1 hr
  refine ⟨⟨k, hk⟩, rfl, fun k' hrep' => ?_⟩
  have honce := List.pairwise_iff_getElem.1
    (represents_once i : (N.uniqueRecipients optedOut customers).Pairwise _)
  rcases lt_trichotomy k' ⟨k, hk⟩ with hlt | heq | hgt
  · exact absurd ⟨hrep', hrep⟩ (honce k' k k'.2 hk hlt)
  · exact heq
  · exact absurd ⟨hrep, hrep'⟩ (honce k k' hk k'.2 hgt)

/-- A group with a phone has a recipient, with a phone of the group. -/
theorem phone_represented (optedOut : List (Contact β)) (i : Fin customers.length)
    (hi : (N.phoneOf customers[i]).isSome = true) :
    ∃ r ∈ N.uniqueRecipients optedOut customers, ∃ j, N.Linked customers i j ∧
      ∃ p, N.phoneOf r = some p ∧ N.phoneOf customers[j] = some p := by
  obtain ⟨m, rest, hg, him, hmem⟩ := exists_group (N := N) i
  obtain ⟨r, hr⟩ := recipient_isSome optedOut him (.inl hi)
  obtain ⟨m', rest', heq, -, hphone⟩ := recipient_eq_some hr
  obtain ⟨rfl, rfl⟩ := List.cons.inj heq
  obtain ⟨p, hp⟩ := Option.isSome_iff_exists.1 (phoneOf_groupPhone hphone him hi)
  obtain ⟨j, hj, hjp⟩ := groupPhone_some hphone hp
  exact ⟨r, mem_uniqueRecipients.2 ⟨_, hg, hr⟩, j, (hmem j).1 hj, p, hp, hjp⟩

/-- A group with an e-mail of which none left has a recipient, with an e-mail of the group. -/
theorem email_represented (i : Fin customers.length)
    (hi : (N.emailOf customers[i]).isSome = true) (hstays : N.Stays optedOut customers i) :
    ∃ r ∈ N.uniqueRecipients optedOut customers, ∃ j, N.Linked customers i j ∧
      ∃ e, N.emailOf r = some e ∧ N.emailOf customers[j] = some e := by
  obtain ⟨m, rest, hg, him, hmem⟩ := exists_group (N := N) i
  have hleft : ∀ j ∈ m :: rest, N.leftBy optedOut customers[j] = false := by
    intro j hj
    rw [Bool.eq_false_iff]
    intro hgone
    obtain ⟨o, ho, hshares⟩ := leftBy_iff.1 hgone
    exact hstays j ((hmem j).1 hj) o ho hshares
  obtain ⟨r, hr⟩ := recipient_isSome optedOut him (.inr ⟨hi, hleft⟩)
  obtain ⟨m', rest', heq, hemail, -⟩ := recipient_eq_some hr
  obtain ⟨rfl, rfl⟩ := List.cons.inj heq
  obtain ⟨e, he⟩ := Option.isSome_iff_exists.1 (emailOf_groupEmail hemail him hi hleft)
  obtain ⟨⟨j, hj, hje⟩, -⟩ := groupEmail_some hemail he
  exact ⟨r, mem_uniqueRecipients.2 ⟨_, hg, hr⟩, j, (hmem j).1 hj, e, he, hje⟩

/-- Links go with the records when they are put in another order. -/
theorem linked_reorder {customers' : List (Contact α)}
    (σ : Fin customers'.length ≃ Fin customers.length) (hσ : ∀ i, customers'[i] = customers[σ i])
    {i j : Fin customers'.length} :
    N.Linked customers' i j ↔ N.Linked customers (σ i) (σ j) := by
  have hforward : ∀ {i j}, N.Linked customers' i j → N.Linked customers (σ i) (σ j) := by
    intro i j h
    induction h with
    | rel i j h => exact .rel _ _ (by rwa [hσ, hσ] at h)
    | refl i => exact .refl _
    | symm i j _ ih => exact ih.symm
    | trans i j k _ _ ih₁ ih₂ => exact ih₁.trans _ _ _ ih₂
  have hback : ∀ {i j}, N.Linked customers i j → N.Linked customers' (σ.symm i) (σ.symm j) := by
    intro i j h
    induction h with
    | rel i j h => exact .rel _ _ (by simpa only [hσ, σ.apply_symm_apply] using h)
    | refl i => exact .refl _
    | symm i j _ ih => exact ih.symm
    | trans i j k _ _ ih₁ ih₂ => exact ih₁.trans _ _ _ ih₂
  refine ⟨hforward, fun h => ?_⟩
  have hij := hback h
  rwa [σ.symm_apply_apply, σ.symm_apply_apply] at hij

theorem groupSets_reorder {customers' : List (Contact α)}
    (σ : Fin customers'.length ≃ Fin customers.length) (hσ : ∀ i, customers'[i] = customers[σ i]) :
    Set.image (Set.image σ) (N.groupSets customers') = N.groupSets customers := by
  have himage : ∀ i, σ '' {j | N.Linked customers' i j} = {j | N.Linked customers (σ i) j} := by
    intro i
    ext j
    constructor
    · rintro ⟨x, hx, rfl⟩
      exact (linked_reorder σ hσ).1 hx
    · intro hj
      refine ⟨σ.symm j, (linked_reorder σ hσ).2 ?_, σ.apply_symm_apply j⟩
      rwa [σ.apply_symm_apply]
  rw [groupSets_eq, groupSets_eq]
  ext s
  constructor
  · rintro ⟨s', ⟨i, rfl⟩, rfl⟩
    exact ⟨σ i, himage i⟩
  · rintro ⟨i, rfl⟩
    exact ⟨_, ⟨σ.symm i, rfl⟩, by rw [himage, σ.apply_symm_apply]⟩

end Main

/-- The recipients of a campaign: no two share an e-mail or a phone; none is written to by e-mail
whose group left; every group with a phone, and every group with an e-mail that did not leave, has one
recipient, by its phone or e-mail; and the groups are the same in any order of the records. -/
theorem uniqueRecipients_spec (optedOut : List (Contact β)) (customers : List (Contact α)) :
    ((N.uniqueRecipients optedOut customers).Pairwise fun r r' => ¬N.Shares r r') ∧
    (∀ r ∈ N.uniqueRecipients optedOut customers, ∀ e, N.emailOf r = some e →
      (∀ o ∈ optedOut, N.emailOf o ≠ some e) ∧
        ∀ i, N.emailOf customers[i] = some e → N.Stays optedOut customers i) ∧
    ((∀ i, (N.phoneOf customers[i]).isSome = true →
      ∃ k : Fin (N.uniqueRecipients optedOut customers).length,
        (∃ j, N.Linked customers i j ∧ ∃ p,
          N.phoneOf (N.uniqueRecipients optedOut customers)[k] = some p ∧
          N.phoneOf customers[j] = some p) ∧
        ∀ k' : Fin (N.uniqueRecipients optedOut customers).length,
          N.Represents customers i (N.uniqueRecipients optedOut customers)[k'] → k' = k) ∧
      ∀ i, (N.emailOf customers[i]).isSome = true → N.Stays optedOut customers i →
        ∃ k : Fin (N.uniqueRecipients optedOut customers).length,
          (∃ j, N.Linked customers i j ∧ ∃ e,
            N.emailOf (N.uniqueRecipients optedOut customers)[k] = some e ∧
            N.emailOf customers[j] = some e) ∧
          ∀ k' : Fin (N.uniqueRecipients optedOut customers).length,
            N.Represents customers i (N.uniqueRecipients optedOut customers)[k'] → k' = k) ∧
    ∀ (customers' : List (Contact α)) (σ : Fin customers'.length ≃ Fin customers.length),
      (∀ i, customers'[i] = customers[σ i]) →
        Set.image (Set.image σ) (N.groupSets customers') = N.groupSets customers := by
  refine ⟨?_, fun r hr e he => email_stays hr he, ⟨fun i hi => ?_, fun i hi hstays => ?_⟩,
    fun customers' σ hσ => groupSets_reorder σ hσ⟩
  · refine List.pairwise_filterMap.2 (groups_apart.imp fun {g g'} hapart r h r' h' hshares => ?_)
    obtain ⟨i, hi, hir'⟩ := shares_recipient h hshares
    obtain ⟨j, hj, hji⟩ := shares_recipient h' hir'.symm
    exact hapart i hi j hj (.rel _ _ hji.symm)
  · obtain ⟨r, hr, j, hij, p, hp, hjp⟩ := phone_represented optedOut i hi
    obtain ⟨k, rfl, hunique⟩ := represents_unique hr ⟨j, hij, .inr ⟨p, hp, hjp⟩⟩
    exact ⟨k, ⟨j, hij, p, hp, hjp⟩, hunique⟩
  · obtain ⟨r, hr, j, hij, e, he, hje⟩ := email_represented i hi hstays
    obtain ⟨k, rfl, hunique⟩ := represents_unique hr ⟨j, hij, .inl ⟨e, he, hje⟩⟩
    exact ⟨k, ⟨j, hij, e, he, hje⟩, hunique⟩

/-- The last record has the first one's e-mail and the second one's phone. -/
example : (uniqueRecipients ⟨id, rfl, some⟩ ([] : List (Contact Unit))
    [⟨some "ana", some "1", ()⟩, ⟨none, some "2", ()⟩, ⟨some "ana", some "2", ()⟩]).length = 1 := by
  decide +kernel

end Normal

end Barbershop
