import Barbershop.Social.Post

/-!
# A post goes out once on each network

While a run holds the reservation, the row is reserved or cancelled and its ids are those that the
run read; when none does, a network on which the post went out has its id in the row, and a failed
row has no id. A retry clears the ids of a failed row, so a post that went out is not sent again
exactly as long as nothing marks it as failed.
-/

namespace Barbershop

open Lib

namespace PostBooks

/-! ## The law -/

/-- A retry would have the post sent to Facebook. -/
def SendsFacebook (p : SocialPost) : Prop :=
  p.retriable = true ∧ p.postToFacebook = true ∧
    ∀ scheduledFor, (p.retry p.partially scheduledFor).facebookPostId = none

def SendsInstagram (p : SocialPost) : Prop :=
  p.retriable = true ∧ p.postToInstagram = true ∧
    ∀ scheduledFor, (p.retry p.partially scheduledFor).instagramMediaId = none

structure Guarded (s : PostBooks) : Prop where
  facebook : s.facebook ≤ 1
  instagram : s.instagram ≤ 1
  /-- What a run reserved was neither cancelled nor hidden. -/
  claims : ∀ p ∈ s.claims, p.status = .scheduled ∧ p.hiddenAt = none
  retryFacebook : ∀ p, s.post = some p → SendsFacebook p → s.facebook = 0
  retryInstagram : ∀ p, s.post = some p → SendsInstagram p → s.instagram = 0

end PostBooks

open PostBooks

/-! ## Why it holds -/

/-- The ids say where the post went out. -/
structure PostBooks.Out (s : PostBooks) (facebookPostId instagramMediaId : Option ℕ) : Prop where
  facebook : 0 < s.facebook → facebookPostId.isSome = true
  instagram : 0 < s.instagram → instagramMediaId.isSome = true

namespace SocialPost

/-- A run has the row, or nothing takes it any more. -/
def Held (p : SocialPost) : Prop := p.status = .publishing ∨ p.status = .cancelled

structure SameIds (p p' : SocialPost) : Prop where
  facebook : p'.facebookPostId = p.facebookPostId
  instagram : p'.instagramMediaId = p.instagramMediaId

theorem SameIds.refl (p : SocialPost) : p.SameIds p := ⟨rfl, rfl⟩

theorem SameIds.trans {p p' p'' : SocialPost} (h : p.SameIds p') (h' : p'.SameIds p'') :
    p.SameIds p'' := ⟨h'.facebook.trans h.facebook, h'.instagram.trans h.instagram⟩

/-- A row that no run has. -/
structure Rested (s : PostBooks) (p : SocialPost) : Prop where
  out : s.Out p.facebookPostId p.instagramMediaId
  failed : p.status = .failed → p.facebookPostId = none ∧ p.instagramMediaId = none

end SocialPost

structure PostBooks.Sound (s : PostBooks) : Prop where
  facebook : s.facebook ≤ 1
  instagram : s.instagram ≤ 1
  claims : ∀ p ∈ s.claims, p.status = .scheduled ∧ p.hiddenAt = none
  row : ∀ p, s.post = some p → p.Held ∨ p.Rested s

namespace PostCall

/-- The call has reserved the row. -/
def active : PostCall → Bool
  | connecting _ | failing _ | toFacebook _ _ | toInstagram _ _ _ _ | finishing _ _ _ _ => true
  | _ => false

/-- What a call knows of the row, and of where the post went out. -/
def Knows (s : PostBooks) : PostCall → Prop
  | connecting post | toFacebook post _ =>
    (∀ p, s.post = some p → p.Held ∧ post.SameIds p) ∧
      s.Out post.facebookPostId post.instagramMediaId
  | failing _ => ∃ post : SocialPost, (∀ p, s.post = some p → p.Held ∧ post.SameIds p) ∧
      s.Out post.facebookPostId post.instagramMediaId
  | toInstagram post _ facebookPostId _ =>
    (∀ p, s.post = some p → p.Held ∧ post.SameIds p) ∧
      s.Out facebookPostId post.instagramMediaId ∧
      (facebookPostId = none → post.facebookPostId = none)
  | finishing post facebookPostId instagramMediaId _ =>
    (∀ p, s.post = some p → p.Held ∧ post.SameIds p) ∧ s.Out facebookPostId instagramMediaId ∧
      (facebookPostId = none → post.facebookPostId = none) ∧
      (instagramMediaId = none → post.instagramMediaId = none)
  | findingConnection post _ | retrying post _ => post.retriable = true
  | _ => True

end PostCall

def postInv : CallInv PostBooks PostCall ℕ where
  weight _ := 0
  whole s _ := s.Sound
  each s c := c.Knows s
  pair a b := ¬(a.active = true ∧ b.active = true)
  symm h h' := h h'.symm

namespace SocialPost

theorem retriable_cases {p : SocialPost} (h : p.retriable = true) :
    p.status = .failed ∧ p.partially = false ∨ p.status = .published ∧ p.partially = true := by
  simp only [SocialPost.retriable, Bool.and_eq_true, Bool.or_eq_true, beq_iff_eq] at h
  rcases h.1 with hfailed | hpartial
  · exact .inl ⟨hfailed, by simp [SocialPost.partially, hfailed]⟩
  · refine .inr ⟨?_, hpartial⟩
    simp only [SocialPost.partially, Bool.and_eq_true, beq_iff_eq] at hpartial
    exact hpartial.1

theorem not_held_of_retriable {p : SocialPost} (h : p.retriable = true) : ¬p.Held := by
  rintro (hpublishing | hcancelled)
  · rcases retriable_cases h with ⟨hstatus, -⟩ | ⟨hstatus, -⟩ <;> simp [hpublishing] at hstatus
  · rcases retriable_cases h with ⟨hstatus, -⟩ | ⟨hstatus, -⟩ <;> simp [hcancelled] at hstatus

/-- A retry loses no id, since a failed row has none. -/
theorem Rested.retry {s : PostBooks} {p post : SocialPost} (h : p.Rested s) (hpost : post.retriable = true)
    (hstatus : p.status = post.status) (scheduledFor : ℤ) :
    p.SameIds (p.retry post.partially scheduledFor) := by
  rcases retriable_cases hpost with ⟨hfailed, hwhole⟩ | ⟨-, hpartial⟩
  · obtain ⟨hf, hi⟩ := h.failed (hstatus.trans hfailed)
    simp only [SocialPost.retry, hwhole]
    exact ⟨hf.symm, hi.symm⟩
  · simp only [SocialPost.retry, hpartial]
    exact ⟨rfl, rfl⟩

end SocialPost

namespace PostBooks

variable {s s' : PostBooks}

theorem Out.congr {f i : Option ℕ} (h : s.Out f i) (hf : s'.facebook = s.facebook)
    (hi : s'.instagram = s.instagram) : s'.Out f i :=
  ⟨fun hpos => h.facebook (hf ▸ hpos), fun hpos => h.instagram (hi ▸ hpos)⟩

/-- A row that a retry takes has the ids of where it went out. -/
theorem Sound.retry (h : s.Sound) {p : SocialPost} (hp : s.post = some p)
    (hretriable : p.retriable = true) (scheduledFor : ℤ) :
    s.Out (p.retry p.partially scheduledFor).facebookPostId
      (p.retry p.partially scheduledFor).instagramMediaId := by
  have hrested := (h.row p hp).resolve_left (SocialPost.not_held_of_retriable hretriable)
  have hsame := hrested.retry hretriable rfl scheduledFor
  rw [hsame.facebook, hsame.instagram]
  exact hrested.out

theorem Sound.guarded (h : s.Sound) : s.Guarded where
  facebook := h.facebook
  instagram := h.instagram
  claims := h.claims
  retryFacebook := by
    rintro p hp ⟨hretriable, -, hnone⟩
    have hout := (h.retry hp hretriable 0).facebook
    rw [hnone 0] at hout
    exact Nat.eq_zero_of_not_pos fun hpos => by cases hout hpos
  retryInstagram := by
    rintro p hp ⟨hretriable, -, hnone⟩
    have hout := (h.retry hp hretriable 0).instagram
    rw [hnone 0] at hout
    exact Nat.eq_zero_of_not_pos fun hpos => by cases hout hpos

/-- A conditional write that takes no row. -/
theorem writeIf_of_none {b : SocialPost → Bool} {f : SocialPost → SocialPost}
    (h : ∀ p, s.post = some p → b p = false) : s.writeIf b f = s := by
  have hmap : (s.post.map fun p => if b p then f p else p) = s.post := by
    cases hp : s.post with
    | none => rfl
    | some p => simp [h p hp]
  simp only [writeIf, write, hmap]

/-! ### Writes beside a reservation -/

/-- The row stays with its ids, or goes; it is not marked as failed with an id. -/
structure Aside (s s' : PostBooks) : Prop where
  facebook : s'.facebook = s.facebook
  instagram : s'.instagram = s.instagram
  claims : s'.claims = s.claims
  row : ∀ p', s'.post = some p' → ∃ p, s.post = some p ∧ p.SameIds p' ∧ (p.Held → p'.Held) ∧
    (p'.Held ∨ (p'.status = .failed → p.Rested s →
      p'.facebookPostId = none ∧ p'.instagramMediaId = none))

theorem Aside.refl (s : PostBooks) : s.Aside s where
  facebook := rfl
  instagram := rfl
  claims := rfl
  row p hp := ⟨p, hp, .refl p, fun h => h, .inr fun hfailed hrested => hrested.failed hfailed⟩

theorem Aside.write {f : SocialPost → SocialPost} (hids : ∀ p, s.post = some p → p.SameIds (f p))
    (hheld : ∀ p, s.post = some p → p.Held → (f p).Held)
    (hfailed : ∀ p, s.post = some p → (f p).Held ∨ ((f p).status = .failed → p.Rested s →
      (f p).facebookPostId = none ∧ (f p).instagramMediaId = none)) : s.Aside (s.write f) where
  facebook := rfl
  instagram := rfl
  claims := rfl
  row := by
    intro p' hp'
    obtain ⟨p, hp, rfl⟩ := Option.map_eq_some_iff.1 hp'
    exact ⟨p, hp, hids p hp, hheld p hp, hfailed p hp⟩

theorem Sound.aside (h : s.Sound) (ha : s.Aside s') : s'.Sound where
  facebook := ha.facebook ▸ h.facebook
  instagram := ha.instagram ▸ h.instagram
  claims := ha.claims ▸ h.claims
  row := by
    intro p' hp'
    obtain ⟨p, hp, hids, hheld, hfailed⟩ := ha.row p' hp'
    rcases h.row p hp with hp | hrested
    · exact .inl (hheld hp)
    rcases hfailed with hp' | hfailed
    · exact .inl hp'
    · refine .inr ⟨?_, fun hstatus => hfailed hstatus hrested⟩
      rw [hids.facebook, hids.instagram]
      exact hrested.out.congr ha.facebook ha.instagram

end PostBooks

theorem PostCall.Knows.aside {s s' : PostBooks} {c : PostCall} (h : c.Knows s) (ha : s.Aside s') :
    c.Knows s' := by
  have hrow : ∀ {post : SocialPost}, (∀ p, s.post = some p → p.Held ∧ post.SameIds p) →
      ∀ p, s'.post = some p → p.Held ∧ post.SameIds p := by
    intro post hpost p' hp'
    obtain ⟨p, hp, hids, hheld, -⟩ := ha.row p' hp'
    exact ⟨hheld (hpost p hp).1, (hpost p hp).2.trans hids⟩
  cases c with
  | connecting post => exact ⟨hrow h.1, h.2.congr ha.facebook ha.instagram⟩
  | toFacebook post connection => exact ⟨hrow h.1, h.2.congr ha.facebook ha.instagram⟩
  | failing message =>
    obtain ⟨post, hpost, hout⟩ := h
    exact ⟨post, hrow hpost, hout.congr ha.facebook ha.instagram⟩
  | toInstagram post connection f errors =>
    exact ⟨hrow h.1, h.2.1.congr ha.facebook ha.instagram, h.2.2⟩
  | finishing post f i errors =>
    exact ⟨hrow h.1, h.2.1.congr ha.facebook ha.instagram, h.2.2⟩
  | findingConnection post scheduledFor => exact h
  | retrying post scheduledFor => exact h
  | _ => trivial

/-! ## Steps -/

namespace PostKept

variable {s s' : PostBooks} {c c' : Option PostCall}

theorem aside (ha : s.Aside s') (hinactive : ∀ a ∈ c', a.active = false)
    (hmine : ∀ a ∈ c', a.Knows s') : postInv.Keeps s c (s', c') := by
  intro m hsound _
  exact {
    whole := Sound.aside hsound ha
    mine := hmine
    others := fun d hd _ => hd.aside ha
    apart := fun d _ _ a hc' hboth => by simp [hinactive a hc'] at hboth }

/-- A step that reads, and is not of a run that has the row. -/
theorem read (hinactive : ∀ a ∈ c', a.active = false) (hmine : ∀ a ∈ c', a.Knows s) :
    postInv.Keeps s c (s, c') := aside (.refl s) hinactive hmine

theorem gone : postInv.Keeps s c (s, none) := read (by simp) (by simp)

/-- A call that has not reserved the row and, while it does not retry, knows nothing of it. -/
theorem goes {a : PostCall} (hinactive : a.active = false) (hknows : a.Knows s) :
    postInv.Keeps s c (s, some a) :=
  read (by simpa using hinactive) (by simpa using hknows)

theorem writes {f : SocialPost → SocialPost} (hids : ∀ p, s.post = some p → p.SameIds (f p))
    (hheld : ∀ p, s.post = some p → p.Held → (f p).Held)
    (hfailed : ∀ p, s.post = some p → (f p).Held ∨ ((f p).status = .failed → p.Rested s →
      (f p).facebookPostId = none ∧ (f p).instagramMediaId = none)) :
    postInv.Keeps s c (s.write f, none) :=
  aside (.write hids hheld hfailed) (by simp) (by simp)

/-- A conditional write; the rows that it takes keep their ids. -/
theorem writesIf {b : SocialPost → Bool} {f : SocialPost → SocialPost}
    (htaken : ∀ p, s.post = some p → b p = true → p.SameIds (f p) ∧ ¬p.Held ∧ ((f p).Held ∨
      (f p).facebookPostId = none ∧ (f p).instagramMediaId = none)) :
    postInv.Keeps s c (s.writeIf b f, none) := by
  apply writes
  · intro p hp
    cases hb : b p with
    | false => exact .refl p
    | true => exact (htaken p hp hb).1
  · intro p hp hheld
    cases hb : b p with
    | false => exact hheld
    | true => exact absurd hheld (htaken p hp hb).2.1
  · intro p hp
    cases hb : b p with
    | false => exact .inr fun hfailed hrested => hrested.failed hfailed
    | true => exact (htaken p hp hb).2.2.imp_right fun hnone _ _ => hnone

/-! ### Runs that have not reserved the row -/

theorem sweeping {k : PostChance} (hkeeps : PostCall.sweeping.keepsIds s = true) {r}
    (hr : PostCall.sweeping.step k s = some r) : postInv.Keeps s c r := by
  obtain rfl := Option.some.inj hr
  rw [writeIf_of_none]
  · exact goes rfl trivial
  · intro p hp
    have hfresh := hkeeps
    simp only [PostCall.keepsIds, hp, Option.any_some, Bool.not_eq_true'] at hfresh
    exact hfresh

theorem listing {k : PostChance} {r} (hr : PostCall.listing.step k s = some r) :
    postInv.Keeps s c r := by
  obtain rfl := Option.some.inj hr
  split
  · exact goes rfl trivial
  · exact gone

theorem reading {k : PostChance} {r} (hr : PostCall.reading.step k s = some r) :
    postInv.Keeps s c r := by
  simp only [PostCall.step] at hr
  repeat' split at hr
  all_goals obtain rfl := Option.some.inj hr
  · exact gone
  · exact gone
  · exact goes rfl trivial
  · exact goes rfl trivial

theorem not_held_of_scheduled {p : SocialPost} (h : p.status = .scheduled) : ¬p.Held := by
  rintro (hpublishing | hcancelled)
  · simp [hpublishing] at h
  · simp [hcancelled] at h

theorem cancelling {k : PostChance} {r} (hr : PostCall.cancelling.step k s = some r) :
    postInv.Keeps s c r := by
  obtain rfl := Option.some.inj hr
  exact writesIf fun p _ hb => ⟨⟨rfl, rfl⟩, not_held_of_scheduled (eq_of_beq hb), .inl (.inr rfl)⟩

theorem checking {k : PostChance} {post : SocialPost} {r}
    (hr : (PostCall.checking post).step k s = some r) : postInv.Keeps s c r := by
  simp only [PostCall.step] at hr
  repeat' split at hr
  all_goals obtain rfl := Option.some.inj hr
  · exact gone
  · exact goes rfl trivial
  · exact goes rfl trivial
  · exact goes rfl trivial

theorem closing {k : PostChance} {r} (hr : PostCall.closing.step k s = some r) :
    postInv.Keeps s c r := by
  obtain rfl := Option.some.inj hr
  exact writes (fun p _ => ⟨rfl, rfl⟩) (fun p _ _ => .inr rfl) fun p _ => .inl (.inr rfl)

theorem expiring {k : PostChance} (hkeeps : PostCall.expiring.keepsIds s = true) {r}
    (hr : PostCall.expiring.step k s = some r) : postInv.Keeps s c r := by
  obtain rfl := Option.some.inj hr
  apply writesIf
  intro p hp hb
  have hnone : p.facebookPostId.isNone = true ∧ p.instagramMediaId.isNone = true := by
    simpa [PostCall.keepsIds, hp, eq_of_beq hb] using hkeeps
  exact ⟨⟨rfl, rfl⟩, not_held_of_scheduled (eq_of_beq hb),
    .inr ⟨Option.isNone_iff_eq_none.1 hnone.1, Option.isNone_iff_eq_none.1 hnone.2⟩⟩

/-! ### Retries, deletions and moderation -/

theorem finding {k : PostChance} {scheduledFor : ℤ} {r}
    (hr : (PostCall.finding scheduledFor).step k s = some r) : postInv.Keeps s c r := by
  simp only [PostCall.step] at hr
  split at hr
  · obtain rfl := Option.some.inj hr
    exact gone
  next post hpost =>
  split at hr
  · obtain rfl := Option.some.inj hr
    exact gone
  next htaken =>
  have hretriable : post.retriable = true := by
    by_contra hnot
    exact htaken (by simp [hnot])
  split at hr
  · obtain rfl := Option.some.inj hr
    exact goes (a := .findingConnection post scheduledFor) rfl hretriable
  · obtain rfl := Option.some.inj hr
    split
    · exact goes (a := .retrying post scheduledFor) rfl hretriable
    · exact gone

theorem findingConnection {k : PostChance} {post : SocialPost} {scheduledFor : ℤ} {r}
    (hr : (PostCall.findingConnection post scheduledFor).step k s = some r) :
    postInv.Keeps s (some (.findingConnection post scheduledFor)) r := by
  obtain rfl := Option.some.inj hr
  intro m hsound hmine
  have hretriable : post.retriable = true := hmine _ rfl
  split
  · exact goes (a := .retrying post scheduledFor) rfl hretriable m hsound hmine
  · exact gone m hsound hmine

theorem retrying {k : PostChance} {post : SocialPost} {scheduledFor : ℤ}
    (hkeeps : (PostCall.retrying post scheduledFor).keepsIds s = true) {r}
    (hr : (PostCall.retrying post scheduledFor).step k s = some r) :
    postInv.Keeps s (some (.retrying post scheduledFor)) r := by
  obtain rfl := Option.some.inj hr
  intro m hsound hmine
  have hretriable : post.retriable = true := hmine _ rfl
  have hstatus : ∀ p, s.post = some p → p.status = post.status := by
    intro p hp
    have hsame := hkeeps
    simp only [PostCall.keepsIds, hp, Option.all_some, Bool.and_eq_true, beq_iff_eq] at hsame
    exact hsame.1.1
  have hrested : ∀ p, s.post = some p → ¬p.Held ∧ p.Rested s := by
    intro p hp
    have hnot : ¬p.Held := by
      have hpost := SocialPost.not_held_of_retriable hretriable
      rwa [SocialPost.Held, ← hstatus p hp] at hpost
    exact ⟨hnot, (hsound.row p hp).resolve_left hnot⟩
  refine writes ?_ ?_ ?_ m hsound hmine
  · intro p hp
    exact (hrested p hp).2.retry hretriable (hstatus p hp) scheduledFor
  · intro p hp hheld
    exact absurd hheld (hrested p hp).1
  · intro p hp
    exact .inr fun hfailed => by cases hfailed

theorem findingToDelete {k : PostChance} {r} (hr : PostCall.findingToDelete.step k s = some r) :
    postInv.Keeps s c r := by
  simp only [PostCall.step] at hr
  repeat' split at hr
  all_goals obtain rfl := Option.some.inj hr
  · exact gone
  · exact goes rfl trivial
  · exact gone

theorem deleting {k : PostChance} {r} (hr : PostCall.deleting.step k s = some r) :
    postInv.Keeps s c r := by
  obtain rfl := Option.some.inj hr
  refine aside ⟨rfl, rfl, rfl, ?_⟩ (by simp) (by simp)
  intro p hp
  cases hp

theorem findingToHide {k : PostChance} {hiddenAt : Option ℤ} {r}
    (hr : (PostCall.findingToHide hiddenAt).step k s = some r) : postInv.Keeps s c r := by
  obtain rfl := Option.some.inj hr
  exact goes rfl trivial

theorem settingHidden {k : PostChance} {hiddenAt : Option ℤ} {scheduled : Bool} {r}
    (hr : (PostCall.settingHidden hiddenAt scheduled).step k s = some r) :
    postInv.Keeps s c r := by
  obtain rfl := Option.some.inj hr
  cases hcancels : hiddenAt.isSome && scheduled with
  | true =>
    have hset : SocialPost.setHidden hiddenAt scheduled = fun p =>
        { p.cancel "Cancelado: ocultado pela moderação." with hiddenAt := hiddenAt } := by
      funext p
      simp [SocialPost.setHidden, hcancels]
    rw [hset]
    exact writes (fun p _ => ⟨rfl, rfl⟩) (fun p _ _ => .inr rfl) fun p _ => .inl (.inr rfl)
  | false =>
    have hset : SocialPost.setHidden hiddenAt scheduled = fun p => { p with hiddenAt := hiddenAt } := by
      funext p
      simp [SocialPost.setHidden, hcancels]
    rw [hset]
    exact writes (fun p _ => ⟨rfl, rfl⟩) (fun p _ hheld => hheld) fun p _ =>
      .inr fun hfailed hrested => hrested.failed hfailed

/-! ### Runs that have the row -/

theorem inactive_of_held {a d : PostCall} (ha : a.active = true) (h : postInv.pair a d) :
    d.active = false := by
  cases hd : d.active with
  | false => rfl
  | true => exact absurd ⟨ha, hd⟩ h

/-- A call that does not have the row knows nothing that a write could change. -/
theorem knows_of_inactive {d : PostCall} (hinactive : d.active = false) (h : d.Knows s) :
    d.Knows s' := by
  cases d with
  | findingConnection post scheduledFor => exact h
  | retrying post scheduledFor => exact h
  | connecting | failing | toFacebook | toInstagram | finishing => cases hinactive
  | _ => trivial

theorem active_of_knows {d : PostCall} {p : SocialPost} (hp : s.post = some p) (h : d.Knows s)
    (hactive : d.active = true) : p.Held := by
  cases d with
  | connecting post => exact (h.1 p hp).1
  | toFacebook post connection => exact (h.1 p hp).1
  | failing message =>
    obtain ⟨post, hpost, -⟩ := h
    exact (hpost p hp).1
  | toInstagram post connection f errors => exact (h.1 p hp).1
  | finishing post f i errors => exact (h.1 p hp).1
  | _ => cases hactive

/-- A step of the run that has the row. -/
theorem held {a : PostCall} {m : ℕ} (hactive : a.active = true) (hsound : s'.Sound)
    (hmine : ∀ b ∈ c', b.Knows s') : postInv.Kept s (some a) m s' c' where
  whole := hsound
  mine := hmine
  others d hd hpair := knows_of_inactive (inactive_of_held hactive (hpair a rfl)) hd
  apart d _ hpair b _ hboth := by
    have hinactive := inactive_of_held hactive (hpair a rfl)
    simp [hinactive] at hboth

theorem claiming {k : PostChance} {post : SocialPost}
    (hkeeps : (PostCall.claiming post).keepsIds s = true) {r}
    (hr : (PostCall.claiming post).step k s = some r) :
    postInv.Keeps s (some (.claiming post)) r := by
  simp only [PostCall.step] at hr
  split at hr
  · obtain rfl := Option.some.inj hr
    exact gone
  next p hp =>
  split at hr
  swap
  · obtain rfl := Option.some.inj hr
    exact gone
  next hfree =>
  obtain rfl := Option.some.inj hr
  intro m hsound _
  have hnot := not_held_of_scheduled hfree.1
  have hrested := (hsound.row p hp).resolve_left hnot
  have hids : post.SameIds p := by
    have hsame : p.facebookPostId = post.facebookPostId ∧
        p.instagramMediaId = post.instagramMediaId := by
      simpa [PostCall.keepsIds, hp, hfree.1, hfree.2] using hkeeps
    exact ⟨hsame.1, hsame.2⟩
  have hinactive : ∀ d : PostCall, d.Knows s → d.active = false := by
    intro d hd
    cases hactive : d.active with
    | false => rfl
    | true => exact absurd (active_of_knows hp hd hactive) hnot
  exact {
    whole := {
      facebook := hsound.facebook
      instagram := hsound.instagram
      claims := by
        intro q hq
        rcases List.mem_cons.1 hq with rfl | hq
        · exact hfree
        · exact hsound.claims q hq
      row := by
        intro q hq
        obtain rfl := Option.some.inj hq
        exact .inl (.inl rfl) }
    mine := by
      intro a ha
      obtain rfl := Option.some.inj ha
      refine ⟨?_, ?_⟩
      · intro q hq
        obtain rfl := Option.some.inj hq
        exact ⟨.inl rfl, hids.facebook, hids.instagram⟩
      · have hout : s.Out post.facebookPostId post.instagramMediaId := by
          rw [← hids.facebook, ← hids.instagram]
          exact hrested.out
        exact hout.congr rfl rfl
    others := fun d hd _ => knows_of_inactive (hinactive d hd) hd
    apart := fun d hd _ a _ hboth => by simp [hinactive d hd] at hboth }

theorem connecting {k : PostChance} {post : SocialPost} {r}
    (hr : (PostCall.connecting post).step k s = some r) :
    postInv.Keeps s (some (.connecting post)) r := by
  intro m hsound hmine
  obtain ⟨hrow, hout⟩ : (PostCall.connecting post).Knows s := hmine _ rfl
  have hgoes : ∀ {b : PostCall}, b.Knows s →
      postInv.Kept s (some (.connecting post)) m s (some b) := by
    intro b hb
    exact held rfl hsound (by simpa using hb)
  simp only [PostCall.step] at hr
  repeat' split at hr
  all_goals obtain rfl := Option.some.inj hr
  · exact hgoes ⟨post, hrow, hout⟩
  · exact hgoes ⟨hrow, hout⟩
  · exact hgoes ⟨post, hrow, hout⟩

theorem failing {k : PostChance} {message : String}
    (hkeeps : (PostCall.failing message).keepsIds s = true) {r}
    (hr : (PostCall.failing message).step k s = some r) :
    postInv.Keeps s (some (.failing message)) r := by
  obtain rfl := Option.some.inj hr
  intro m hsound hmine
  obtain ⟨post, hrow, hout⟩ : (PostCall.failing message).Knows s := hmine _ rfl
  refine held (a := .failing message) rfl ⟨hsound.facebook, hsound.instagram, hsound.claims, ?_⟩ (by simp)
  intro p' hp'
  obtain ⟨p, hp, rfl⟩ := Option.map_eq_some_iff.1 hp'
  have hnone : p.facebookPostId = none ∧ p.instagramMediaId = none := by
    simpa [PostCall.keepsIds, hp] using hkeeps
  refine .inr ⟨?_, fun _ => hnone⟩
  have hids := (hrow p hp).2
  rw [← hids.facebook, ← hids.instagram] at hout
  exact hout.congr rfl rfl

theorem toFacebook {k : PostChance} {post : SocialPost} {connection : SocialConnection} {r}
    (hr : (PostCall.toFacebook post connection).step k s = some r) :
    postInv.Keeps s (some (.toFacebook post connection)) r := by
  intro m hsound hmine
  obtain ⟨hrow, hout⟩ : (PostCall.toFacebook post connection).Knows s := hmine _ rfl
  simp only [PostCall.step] at hr
  split at hr
  swap
  · obtain rfl := Option.some.inj hr
    refine held rfl hsound ?_
    intro b hb
    obtain rfl := Option.some.inj hb
    exact ⟨hrow, hout, fun h => h⟩
  next hsends =>
  have hnone : post.facebookPostId = none := by
    simp only [Bool.and_eq_true, Option.isNone_iff_eq_none] at hsends
    exact hsends.2
  have hzero : s.facebook = 0 := by
    have hsome := hout.facebook
    rw [hnone] at hsome
    exact Nat.eq_zero_of_not_pos fun hpos => by cases hsome hpos
  split at hr
  · obtain rfl := Option.some.inj hr
    refine held (a := .toFacebook post connection) rfl
      ⟨?_, hsound.instagram, hsound.claims, ?_⟩ ?_
    · show s.facebook + 1 ≤ 1
      omega
    · intro p hp
      exact .inl (hrow p hp).1
    · intro b hb
      obtain rfl := Option.some.inj hb
      exact ⟨hrow, ⟨fun _ => rfl, hout.instagram⟩, fun h => by cases h⟩
  · obtain rfl := Option.some.inj hr
    refine held rfl hsound ?_
    intro b hb
    obtain rfl := Option.some.inj hb
    have hunsent : s.Out none post.instagramMediaId := ⟨fun hpos => by omega, hout.instagram⟩
    exact ⟨hrow, hunsent, fun _ => hnone⟩

theorem toInstagram {k : PostChance} {post : SocialPost} {connection : SocialConnection}
    {f : Option ℕ} {errors : List String} {r}
    (hr : (PostCall.toInstagram post connection f errors).step k s = some r) :
    postInv.Keeps s (some (.toInstagram post connection f errors)) r := by
  intro m hsound hmine
  obtain ⟨hrow, hout, hfacebook⟩ : (PostCall.toInstagram post connection f errors).Knows s :=
    hmine _ rfl
  have hgoes : ∀ {i : Option ℕ} {errors' : List String}, s.Out f i →
      (i = none → post.instagramMediaId = none) →
      postInv.Kept s (some (.toInstagram post connection f errors)) m s
        (some (.finishing post f i errors')) := by
    intro i errors' hout hinstagram
    refine held rfl hsound ?_
    intro b hb
    obtain rfl := Option.some.inj hb
    exact ⟨hrow, hout, hfacebook, hinstagram⟩
  simp only [PostCall.step] at hr
  split at hr
  swap
  · obtain rfl := Option.some.inj hr
    exact hgoes hout fun h => h
  next hsends =>
  have hnone : post.instagramMediaId = none := by
    simp only [Bool.and_eq_true, Option.isNone_iff_eq_none] at hsends
    exact hsends.2
  have hzero : s.instagram = 0 := by
    have hsome := hout.instagram
    rw [hnone] at hsome
    exact Nat.eq_zero_of_not_pos fun hpos => by cases hsome hpos
  have hunsent : s.Out f none := ⟨hout.facebook, fun hpos => by omega⟩
  split at hr
  · obtain rfl := Option.some.inj hr
    exact hgoes hunsent fun _ => hnone
  · obtain rfl := Option.some.inj hr
    refine held (a := .toInstagram post connection f errors) rfl
      ⟨hsound.facebook, ?_, hsound.claims, ?_⟩ ?_
    · show s.instagram + 1 ≤ 1
      omega
    · intro p hp
      exact .inl (hrow p hp).1
    · intro b hb
      obtain rfl := Option.some.inj hb
      exact ⟨hrow, ⟨hout.facebook, fun _ => rfl⟩, hfacebook, fun h => by cases h⟩
  · obtain rfl := Option.some.inj hr
    exact hgoes hunsent fun _ => hnone

/-- What the end of a run leaves is where the post went out. -/
theorem rested_finish {post p : SocialPost} {f i : Option ℕ} (hids : post.SameIds p)
    (hout : s.Out f i) (hfacebook : f = none → post.facebookPostId = none)
    (hinstagram : i = none → post.instagramMediaId = none) (publishedAt : ℤ)
    (errors : List String) : (p.finish publishedAt f i errors).Rested s := by
  unfold SocialPost.finish
  split
  · refine ⟨⟨fun hpos => ?_, fun hpos => ?_⟩, fun hfailed => by cases hfailed⟩
    · simp [hout.facebook hpos]
    · simp [hout.instagram hpos]
  · next hneither =>
    obtain ⟨hf, hi⟩ : f = none ∧ i = none := by simpa using hneither
    have hnone : p.facebookPostId = none ∧ p.instagramMediaId = none :=
      ⟨hids.facebook.trans (hfacebook hf), hids.instagram.trans (hinstagram hi)⟩
    refine ⟨?_, fun _ => hnone⟩
    rw [hf, hi] at hout
    refine ⟨fun hpos => ?_, fun hpos => ?_⟩
    · cases hout.facebook hpos
    · cases hout.instagram hpos

theorem finishing {k : PostChance} {post : SocialPost} {f i : Option ℕ} {errors : List String} {r}
    (hr : (PostCall.finishing post f i errors).step k s = some r) :
    postInv.Keeps s (some (.finishing post f i errors)) r := by
  obtain rfl := Option.some.inj hr
  intro m hsound hmine
  obtain ⟨hrow, hout, hfacebook, hinstagram⟩ : (PostCall.finishing post f i errors).Knows s :=
    hmine _ rfl
  refine held (a := .finishing post f i errors) rfl ⟨hsound.facebook, hsound.instagram, hsound.claims, ?_⟩ (by simp)
  intro p' hp'
  obtain ⟨p, hp, rfl⟩ := Option.map_eq_some_iff.1 hp'
  have hrested := rested_finish (hrow p hp).2 hout hfacebook hinstagram
    (post.publishedAt.getD s.now) errors
  exact .inr ⟨hrested.out.congr rfl rfl, hrested.failed⟩

/-! ### Any step -/

theorem step {k : PostChance} {a : PostCall} (hkeeps : a.keepsIds s = true) {r}
    (hr : a.step k s = some r) : postInv.Keeps s (some a) r := by
  cases a with
  | sweeping => exact sweeping hkeeps hr
  | listing => exact listing hr
  | reading => exact reading hr
  | cancelling => exact cancelling hr
  | checking post => exact checking hr
  | closing => exact closing hr
  | expiring => exact expiring hkeeps hr
  | claiming post => exact claiming hkeeps hr
  | connecting post => exact connecting hr
  | failing message => exact failing hkeeps hr
  | toFacebook post connection => exact toFacebook hr
  | toInstagram post connection f errors => exact toInstagram hr
  | finishing post f i errors => exact finishing hr
  | finding scheduledFor => exact finding hr
  | findingConnection post scheduledFor => exact findingConnection hr
  | retrying post scheduledFor => exact retrying hkeeps hr
  | findingToDelete => exact findingToDelete hr
  | deleting => exact deleting hr
  | findingToHide hiddenAt => exact findingToHide hr
  | settingHidden hiddenAt scheduled => exact settingHidden hr

theorem event {e : PostEvent} {r} (hr : e.step s = some r) : postInv.Keeps s none r := by
  cases e with
  | pass time =>
    obtain rfl := Option.some.inj hr
    exact aside { Aside.refl s with } (by simp) (by simp)
  | connect connection =>
    obtain rfl := Option.some.inj hr
    exact aside { Aside.refl s with } (by simp) (by simp)
  | disconnect =>
    obtain rfl := Option.some.inj hr
    exact aside { Aside.refl s with } (by simp) (by simp)
  | publishDuePosts =>
    obtain rfl := Option.some.inj hr
    exact goes rfl trivial
  | retryPost scheduledFor =>
    obtain rfl := Option.some.inj hr
    exact goes rfl trivial
  | deletePost =>
    obtain rfl := Option.some.inj hr
    exact goes rfl trivial
  | setHidden hiddenAt =>
    obtain rfl := Option.some.inj hr
    exact goes rfl trivial

end PostKept

/-! ## A post over its whole life -/

/-- A post that was just scheduled. -/
def PostBooks.initial (now : ℤ) (postToFacebook postToInstagram : Bool) (scheduledFor : ℤ)
    (connection : Option SocialConnection) : PostBooks where
  now := now
  post := some {
    postToFacebook := postToFacebook
    postToInstagram := postToInstagram
    scheduledFor := scheduledFor
    status := .scheduled
    publishingAt := none
    publishedAt := none
    facebookPostId := none
    instagramMediaId := none
    errorMessage := none
    hiddenAt := none }
  connection := connection
  facebook := 0
  instagram := 0
  claims := []

theorem PostBooks.sound_initial (now : ℤ) (postToFacebook postToInstagram : Bool)
    (scheduledFor : ℤ) (connection : Option SocialConnection) :
    (initial now postToFacebook postToInstagram scheduledFor connection).Sound where
  facebook := Nat.zero_le 1
  instagram := Nat.zero_le 1
  claims := by simp [initial]
  row := by
    intro p hp
    obtain rfl := Option.some.inj hp
    refine .inr ⟨⟨fun hpos => ?_, fun hpos => ?_⟩, fun _ => ⟨rfl, rfl⟩⟩
    · exact absurd hpos (Nat.lt_irrefl 0)
    · exact absurd hpos (Nat.lt_irrefl 0)

theorem post_goes_out_once {now : ℤ} {postToFacebook postToInstagram : Bool} {scheduledFor : ℤ}
    {connection : Option SocialConnection} {x : Calls PostBooks PostCall}
    {moves : List (Move PostEvent PostChance)}
    (hmeets : socialPosts.machine.Meets (CallSystem.When (fun _ _ => True)
      fun _ c s => c.keepsIds s = true)
      (.idle (.initial now postToFacebook postToInstagram scheduledFor connection)) moves)
    (hrun : socialPosts.machine.run
      (.idle (.initial now postToFacebook postToInstagram scheduledFor connection)) moves = some x) :
    x.shared.Guarded := by
  have hidle : postInv.Holds
      (.idle (.initial now postToFacebook postToInstagram scheduledFor connection)) :=
    CallInv.holds_idle (sound_initial now postToFacebook postToInstagram scheduledFor connection)
  have hholds : postInv.Holds x := by
    refine hidle.run ?_ ?_ hmeets hrun
    · intro e s r _ hevent
      exact PostKept.event hevent
    · intro k c s r hkeeps hstep
      exact PostKept.step hkeeps hstep
  exact Sound.guarded hholds.whole

/-! ## Runs -/

/-- A step of the call under `i` with the network answering `sent`. -/
def postAnswered (i : ℕ) (sent : Except String ℕ) : Move PostEvent PostChance :=
  .step i { sent := sent }

/-- The next steps of a call, with every network answering. -/
def postSteps (i n : ℕ) : List (Move PostEvent PostChance) := List.replicate n (.step i {})

/-- A run that has the post out on Facebook and not on Instagram. -/
def outOnFacebook (i : ℕ) : List (Move PostEvent PostChance) :=
  .event .publishDuePosts :: postSteps i 7 ++ postAnswered i (.error "timeout") :: postSteps i 1

/-- It goes out on one network, and after a retry on the other. -/
def outAfterRetry : List (Move PostEvent PostChance) :=
  outOnFacebook 1 ++ .event (.retryPost 0) :: postSteps 2 3 ++
    .event .publishDuePosts :: postSteps 3 9

/-- A post for both networks, with a page that has an account of both. -/
def bothNetworks : PostBooks := .initial 0 true true 0 (some ⟨some 1⟩)

theorem post_out_after_retry : ∃ x,
    socialPosts.machine.run (.idle bothNetworks) outAfterRetry = some x ∧
    x.shared.facebook = 1 ∧ x.shared.instagram = 1 ∧ x.shared.Guarded := by
  have hmeets : socialPosts.machine.Meets (CallSystem.When (fun _ _ => True)
      fun _ c s => c.keepsIds s = true) (.idle bothNetworks) outAfterRetry := by
    decide +kernel
  have hsome : (socialPosts.machine.run (.idle bothNetworks) outAfterRetry).any (fun x =>
      x.shared.facebook == 1 && x.shared.instagram == 1) = true := by
    decide +kernel
  simp only [Option.any_eq_true, Bool.and_eq_true, beq_iff_eq] at hsome
  obtain ⟨x, hrun, hfacebook, hinstagram⟩ := hsome
  exact ⟨x, hrun, hfacebook, hinstagram, post_goes_out_once hmeets hrun⟩

/-- It goes out on Facebook; the page is disconnected before the retry is published, which marks the
post as failed; and the page is connected again before the next retry. -/
def outThenDisconnected : List (Move PostEvent PostChance) :=
  outOnFacebook 1 ++ .event (.retryPost 0) :: postSteps 2 3 ++
    .event .disconnect :: .event .publishDuePosts :: postSteps 3 7

/-- And then it goes out on Facebook again. -/
def outTwice : List (Move PostEvent PostChance) :=
  outThenDisconnected ++ .event (.connect ⟨some 1⟩) :: .event (.retryPost 0) :: postSteps 4 3 ++
    .event .publishDuePosts :: postSteps 5 9

/-- A run reads the post before another has it out on Facebook, and reserves it after a retry. -/
def outTwiceAtOnce : List (Move PostEvent PostChance) :=
  .event .publishDuePosts :: postSteps 1 4 ++ outOnFacebook 2 ++
    .event (.retryPost 0) :: postSteps 3 3 ++ postSteps 1 5

/-- No sweep of these runs finds a stale reservation. -/
def PostCall.uninterrupted (c : PostCall) (s : PostBooks) : Bool :=
  match c with
  | sweeping => sweeping.keepsIds s
  | _ => true

/-- A post that is out on Facebook is left as one that a retry would send there again, and it goes
out there twice; also when two runs of the publication meet. -/
theorem post_goes_out_twice :
    (∃ x p, socialPosts.machine.run (.idle bothNetworks) outThenDisconnected = some x ∧
      x.shared.post = some p ∧ x.shared.facebook = 1 ∧ SendsFacebook p ∧ ¬x.shared.Guarded) ∧
    ∀ moves ∈ [outTwice, outTwiceAtOnce],
      socialPosts.machine.Meets (CallSystem.When (fun _ _ => True)
        fun _ c s => c.uninterrupted s = true) (.idle bothNetworks) moves ∧
      ∃ x, socialPosts.machine.run (.idle bothNetworks) moves = some x ∧
        x.shared.facebook = 2 ∧ ¬x.shared.Guarded := by
  refine ⟨?_, ?_⟩
  · have hsome : (socialPosts.machine.run (.idle bothNetworks) outThenDisconnected).any (fun x =>
        x.shared.facebook == 1 && x.shared.post.any fun p => p.status == .failed &&
          p.postToFacebook && p.hiddenAt.isNone) = true := by
      decide +kernel
    simp only [Option.any_eq_true, Bool.and_eq_true, beq_iff_eq] at hsome
    obtain ⟨x, hrun, hone, p, hp, ⟨hfailed, hfacebook⟩, hshown⟩ := hsome
    have hwhole : p.partially = false := by simp [SocialPost.partially, hfailed]
    have hsends : SendsFacebook p := by
      refine ⟨?_, hfacebook, fun scheduledFor => ?_⟩
      · simp [SocialPost.retriable, hfailed, hshown]
      · simp [SocialPost.retry, hwhole]
    refine ⟨x, p, hrun, hp, hone, hsends, fun hguarded => ?_⟩
    have hzero := hguarded.retryFacebook p hp hsends
    omega
  · have hall : ∀ moves ∈ [outTwice, outTwiceAtOnce],
        socialPosts.machine.Meets (CallSystem.When (fun _ _ => True)
          fun _ c s => c.uninterrupted s = true) (.idle bothNetworks) moves ∧
        (socialPosts.machine.run (.idle bothNetworks) moves).any
          (·.shared.facebook == 2) = true := by
      decide +kernel
    intro moves hmem
    obtain ⟨hmeets, hsome⟩ := hall moves hmem
    obtain ⟨x, hrun, htwo⟩ := (Option.any_eq_true _ _).1 hsome
    refine ⟨hmeets, x, hrun, eq_of_beq htwo, fun hguarded => ?_⟩
    have hle := hguarded.facebook
    rw [eq_of_beq htwo] at hle
    omega

end Barbershop
