import Barbershop.Lib.Calls

/-!
# A scheduled post

One row of `SocialPost` under the publishing runs of any number of instances, `retryPost`,
`deletePost`, the moderation that hides it, and the unit that connects and disconnects its page. A
run of `publishDuePosts` marks stale reservations, lists what is due, and for a post of the list
reads it, checks the unit, reserves the row, and then calls the networks; what it writes at the end
comes from what it read before it reserved the row.

The fields `facebook`, `instagram` and `claims` are no columns: how often the post went out on each
network, and what each run that reserved the row found in it.
-/

namespace Barbershop

open Lib

inductive SocialStatus where
  | scheduled
  | publishing
  | published
  | failed
  | cancelled
  deriving DecidableEq

structure SocialPost where
  postToFacebook : Bool
  postToInstagram : Bool
  scheduledFor : ℤ
  status : SocialStatus
  publishingAt : Option ℤ
  publishedAt : Option ℤ
  facebookPostId : Option ℕ
  instagramMediaId : Option ℕ
  errorMessage : Option String
  hiddenAt : Option ℤ
  deriving DecidableEq

/-- The connected page, and whether it has an account of the other network. -/
structure SocialConnection where
  instagramBusinessAccountId : Option ℕ

structure PostBooks where
  now : ℤ
  post : Option SocialPost
  connection : Option SocialConnection
  facebook : ℕ
  instagram : ℕ
  claims : List SocialPost

def PUBLISHING_STALE_MS : ℤ := 15 * 60000

def OVERDUE_MS : ℤ := 24 * 3600000

/-! ## Writes of the row -/

namespace SocialPost

def fail (message : String) (p : SocialPost) : SocialPost :=
  { p with status := .failed, errorMessage := some message }

def cancel (message : String) (p : SocialPost) : SocialPost :=
  { p with status := .cancelled, errorMessage := some message }

/-- It went out on one network and not on the other. -/
def partially (p : SocialPost) : Bool :=
  p.status == .published && (p.postToFacebook && p.facebookPostId.isNone ||
    p.postToInstagram && p.instagramMediaId.isNone)

/-- `retryPost` takes it, as far as the row goes. -/
def retriable (p : SocialPost) : Bool :=
  (p.status == .failed || p.partially) && p.hiddenAt.isNone

/-- What `retryPost` writes; `kept`: the post was published in part. -/
def retry (kept : Bool) (scheduledFor : ℤ) (p : SocialPost) : SocialPost :=
  { p with
    status := .scheduled
    scheduledFor := scheduledFor
    errorMessage := none
    publishingAt := none
    publishedAt := if kept then p.publishedAt else none
    facebookPostId := if kept then p.facebookPostId else none
    instagramMediaId := if kept then p.instagramMediaId else none }

def claim (now : ℤ) (p : SocialPost) : SocialPost :=
  { p with status := .publishing, publishingAt := some now }

/-- The end of a run; an id that the run does not have is left as it is. -/
def finish (publishedAt : ℤ) (facebookPostId instagramMediaId : Option ℕ) (errors : List String)
    (p : SocialPost) : SocialPost :=
  if facebookPostId.isSome || instagramMediaId.isSome then
    { p with
      status := .published
      publishedAt := some publishedAt
      facebookPostId := facebookPostId.or p.facebookPostId
      instagramMediaId := instagramMediaId.or p.instagramMediaId
      errorMessage := if errors.isEmpty then none else some (" | ".intercalate errors) }
  else p.fail (" | ".intercalate errors)

/-- Moderation hides the post or shows it again; `scheduled`: it was not out when it was read. -/
def setHidden (hiddenAt : Option ℤ) (scheduled : Bool) (p : SocialPost) : SocialPost :=
  if hiddenAt.isSome && scheduled then
    { p.cancel "Cancelado: ocultado pela moderação." with hiddenAt := hiddenAt }
  else { p with hiddenAt := hiddenAt }

end SocialPost

/-! ## Requests and runs -/

inductive ShopState where
  | works
  | suspended
  | closed

/-- What a step finds beside the row: the unit, whether the page's token can be read, what checks of
other rows and texts say, and what the network answers. -/
structure PostChance where
  shop : ShopState := .works
  token : Bool := true
  ok : Bool := true
  sent : Except String ℕ := .ok 1

inductive PostEvent where
  | pass (time : ℕ)
  | connect (connection : SocialConnection)
  | disconnect
  | publishDuePosts
  | retryPost (scheduledFor : ℤ)
  | deletePost
  | setHidden (hiddenAt : Option ℤ)

/-- Where a request is, by the statement that is next. -/
inductive PostCall where
  -- `publishDuePosts`
  | sweeping
  | listing
  -- `publishPost`
  | reading
  | cancelling
  | checking (post : SocialPost)
  | closing
  | expiring
  | claiming (post : SocialPost)
  | connecting (post : SocialPost)
  | failing (message : String)
  | toFacebook (post : SocialPost) (connection : SocialConnection)
  | toInstagram (post : SocialPost) (connection : SocialConnection) (facebookPostId : Option ℕ)
      (errors : List String)
  | finishing (post : SocialPost) (facebookPostId instagramMediaId : Option ℕ) (errors : List String)
  -- `retryPost`
  | finding (scheduledFor : ℤ)
  | findingConnection (post : SocialPost) (scheduledFor : ℤ)
  | retrying (post : SocialPost) (scheduledFor : ℤ)
  -- `deletePost`
  | findingToDelete
  | deleting
  -- `setHidden`
  | findingToHide (hiddenAt : Option ℤ)
  | settingHidden (hiddenAt : Option ℤ) (scheduled : Bool)

namespace PostBooks

/-- Writes the row, if it is still there. -/
def write (s : PostBooks) (f : SocialPost → SocialPost) : PostBooks :=
  { s with post := s.post.map f }

/-- A conditional write. -/
def writeIf (s : PostBooks) (p : SocialPost → Bool) (f : SocialPost → SocialPost) : PostBooks :=
  s.write fun post => if p post then f post else post

end PostBooks

def PostEvent.step (e : PostEvent) (s : PostBooks) :
    Option (PostBooks × Option PostCall) :=
  match e with
  | pass time => some ({ s with now := s.now + time }, none)
  | connect connection => some ({ s with connection := some connection }, none)
  | disconnect => some ({ s with connection := none }, none)
  | publishDuePosts => some (s, some .sweeping)
  | retryPost scheduledFor => some (s, some (.finding scheduledFor))
  | deletePost => some (s, some .findingToDelete)
  | setHidden hiddenAt => some (s, some (.findingToHide hiddenAt))

def PostCall.step (k : PostChance) (c : PostCall) (s : PostBooks) :
    Option (PostBooks × Option PostCall) :=
  match c with
  | sweeping =>
    some (s.writeIf (fun p => p.status == .publishing &&
        p.publishingAt.any fun t => decide (t < s.now - PUBLISHING_STALE_MS))
      (SocialPost.fail ("A publicação foi interrompida. Confira na rede social se o post saiu " ++
        "antes de tentar de novo.")), some listing)
  | listing =>
    some (s, if s.post.any fun p => p.status == .scheduled && p.hiddenAt.isNone &&
      decide (p.scheduledFor ≤ s.now) then some reading else none)
  | reading =>
    match s.post with
    | none => some (s, none)
    | some post =>
      if post.status ≠ .scheduled then some (s, none)
      else if post.hiddenAt.isSome then some (s, some cancelling)
      else some (s, some (checking post))
  | cancelling =>
    some (s.writeIf (·.status == .scheduled)
      (SocialPost.cancel "Cancelado: ocultado pela moderação."), none)
  | checking post =>
    match k.shop with
    | .suspended => some (s, none)
    | .closed => some (s, some closing)
    | .works =>
      if post.scheduledFor < s.now - OVERDUE_MS then some (s, some expiring)
      else some (s, some (claiming post))
  | closing => some (s.write (SocialPost.cancel "Cancelada pelo encerramento da unidade."), none)
  | expiring =>
    some (s.writeIf (·.status == .scheduled)
      (SocialPost.fail ("O horário marcado já passou há mais de um dia e o post não foi publicado. " ++
        "Reagende se ainda fizer sentido.")), none)
  | claiming post =>
    match s.post with
    | none => some (s, none)
    | some p =>
      if p.status = .scheduled ∧ p.hiddenAt = none then
        some ({ s with post := some (p.claim s.now), claims := p :: s.claims },
          some (connecting post))
      else some (s, none)
  | connecting post =>
    match s.connection with
    | none => some (s, some (failing "Conta desconectada antes da publicação."))
    | some connection =>
      if k.token then some (s, some (toFacebook post connection))
      else some (s, some (failing
        "A conexão com o Facebook precisa ser refeita. Conecte a conta de novo."))
  | failing message => some (s.write (SocialPost.fail message), none)
  | toFacebook post connection =>
    if post.postToFacebook && post.facebookPostId.isNone then
      match k.sent with
      | .ok id =>
        some ({ s with facebook := s.facebook + 1 },
          some (toInstagram post connection (some id) []))
      | .error message =>
        some (s, some (toInstagram post connection none ["Facebook: " ++ message]))
    else some (s, some (toInstagram post connection post.facebookPostId []))
  | toInstagram post connection facebookPostId errors =>
    if post.postToInstagram && post.instagramMediaId.isNone then
      match connection.instagramBusinessAccountId, k.sent with
      | none, _ =>
        some (s, some (finishing post facebookPostId none (errors ++
          ["Instagram: Nenhuma conta do Instagram vinculada à Página conectada."])))
      | some _, .ok id =>
        some ({ s with instagram := s.instagram + 1 },
          some (finishing post facebookPostId (some id) errors))
      | some _, .error message =>
        some (s, some (finishing post facebookPostId none (errors ++ ["Instagram: " ++ message])))
    else some (s, some (finishing post facebookPostId post.instagramMediaId errors))
  | finishing post facebookPostId instagramMediaId errors =>
    some (s.write (SocialPost.finish (post.publishedAt.getD s.now) facebookPostId instagramMediaId
      errors), none)
  | finding scheduledFor =>
    match s.post with
    | none => some (s, none)
    | some post =>
      if !(post.retriable && k.ok) then some (s, none)
      else if post.postToInstagram then some (s, some (findingConnection post scheduledFor))
      else some (s, if s.now ≤ scheduledFor then some (retrying post scheduledFor) else none)
  | findingConnection post scheduledFor =>
    some (s, if s.connection.any (·.instagramBusinessAccountId.isSome) ∧ s.now ≤ scheduledFor then
      some (retrying post scheduledFor) else none)
  | retrying post scheduledFor => some (s.write (SocialPost.retry post.partially scheduledFor), none)
  | findingToDelete =>
    match s.post with
    | none => some (s, none)
    | some post =>
      if post.status = .scheduled ∨ post.status = .failed ∨ post.status = .cancelled then
        some (s, some deleting)
      else some (s, none)
  | deleting => some ({ s with post := none }, none)
  | findingToHide hiddenAt =>
    some (s, some (settingHidden hiddenAt (s.post.any fun p =>
      p.status == .scheduled || p.status == .publishing)))
  | settingHidden hiddenAt scheduled => some (s.write (SocialPost.setHidden hiddenAt scheduled), none)

def socialPosts : CallSystem PostBooks PostCall PostEvent PostChance :=
  ⟨PostEvent.step, PostCall.step⟩

/-! ## Where it goes right -/

/-- A retry writes the row that it read; a run reserves the row with the ids that it read; a post
that is out on a network does not end as failed; and no reservation is stale. -/
def PostCall.keepsIds (c : PostCall) (s : PostBooks) : Bool :=
  match c with
  | sweeping => !s.post.any fun p => p.status == .publishing &&
      p.publishingAt.any fun t => decide (t < s.now - PUBLISHING_STALE_MS)
  | claiming post => s.post.all fun p => !(p.status == .scheduled && p.hiddenAt.isNone) ||
      p.facebookPostId == post.facebookPostId && p.instagramMediaId == post.instagramMediaId
  | expiring => s.post.all fun p => !(p.status == .scheduled) ||
      p.facebookPostId.isNone && p.instagramMediaId.isNone
  | failing _ => s.post.all fun p => p.facebookPostId.isNone && p.instagramMediaId.isNone
  | retrying post _ => s.post.all fun p => p.status == post.status &&
      p.facebookPostId == post.facebookPostId && p.instagramMediaId == post.instagramMediaId
  | _ => true

end Barbershop
