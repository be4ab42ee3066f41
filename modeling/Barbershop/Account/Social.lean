import Barbershop.Lib.Machine
import Barbershop.Lib.Table

/-!
# Social logins

A link ties an account to a person at a provider: the person's id there, and the e-mail the provider
had for them. A login looks for a link by id and then by e-mail, and for an account by its own
e-mail when there is no link. Links from before ids were kept have none, and are completed on the
way. Staff and clients have tables of their own and one shape of code: what differs is in
`SocialChecks`.

Lookups of the staff's tables compare e-mails as `lower` makes them, those of the clients' exactly;
`normalizeEmail` and `trim` are of the strings alone. What a login does to the password and the
sessions of an account whose e-mail was never confirmed is left out.
-/

namespace Barbershop

open Lib

/-- `LinkedSocialAccount`, `ClientLinkedSocialAccount` -/
structure SocialLink where
  account : ℕ
  provider : String
  providerEmail : String
  providerUserId : Option String
  deriving DecidableEq

/-- What logins read of a `User` or a `ClientAccount`. -/
structure SocialAccount where
  email : String
  isActive : Bool
  socialUnlinkedProviders : List String

structure SocialBooks where
  accounts : Table SocialAccount
  links : Table SocialLink

/-- An id that is there: the empty one is not. -/
def givenId (providerUserId : Option String) : Option String := providerUserId.filter (· ≠ "")

def SocialLink.id? (l : SocialLink) : Option String := givenId l.providerUserId

/-- No two links have one account, one e-mail or one id at a provider. -/
def SocialLink.clashes (l l' : SocialLink) : Bool :=
  l.provider == l'.provider && (l.account == l'.account || l.providerEmail == l'.providerEmail ||
    l.providerUserId.isSome && l.providerUserId == l'.providerUserId)

def SOCIAL_UNLINKED_MESSAGE : String :=
  "Este login social foi desconectado da conta. Entre com a senha e ligue de novo pela sua conta."

def CLIENT_SOCIAL_UNLINKED_MESSAGE : String :=
  "Este login social foi desconectado da conta. Entre com a senha (ou outro login) " ++
    "e ligue de novo pela sua conta."

namespace SocialBooks

variable (s : SocialBooks)

def createLink (l : SocialLink) : Option SocialBooks :=
  if s.links.any fun _ l' => l'.clashes l then none else some { s with links := s.links.insert l }

/-- The link under a key becomes `l`. -/
def updateLink (k : ℕ) (l : SocialLink) : Option SocialBooks :=
  if s.links.any fun j l' => j != k && l'.clashes l then none
  else some { s with links := s.links.modify k fun _ => l }

def linkById (provider id : String) : Option (ℕ × SocialLink) :=
  s.links.find? fun _ l => l.provider == provider && l.providerUserId == some id

def linkByEmail (same : String → String → Bool) (provider email : String) :
    Option (ℕ × SocialLink) :=
  s.links.find? fun _ l => l.provider == provider && same l.providerEmail email

def linkOf (account : ℕ) (provider : String) : Option (ℕ × SocialLink) :=
  s.links.find? fun _ l => l.account == account && l.provider == provider

end SocialBooks

def pickSocialLink (byId byEmail : Option (ℕ × SocialLink)) (providerUserId : Option String) :
    Except String (Option (ℕ × SocialLink)) :=
  match byId, byEmail with
  | some l, _ => .ok (some l)
  | none, none => .ok none
  | none, some l =>
    if l.2.id?.isSome ∧ (givenId providerUserId).isSome ∧ l.2.providerUserId ≠ providerUserId then
      .error "Este e-mail já está ligado a outra pessoa neste provedor. Entre com a senha."
    else .ok (some l)

/-! ## Logging in -/

/-- What a login of one kind of account has of its own. -/
structure SocialChecks where
  /-- An e-mail of the tables is the one that was asked for. -/
  same : String → String → Bool
  refused : SocialAccount → Option String
  unlinkedMessage : String
  /-- What the kind wants before it makes an account. -/
  createMessage : String

/-- The account that a login opened, and the link it was found by. -/
structure SocialLogin where
  account : ℕ
  link : Option ℕ
  deriving DecidableEq

/-- What the provider says of who logs in. -/
structure SocialIdentity where
  email : String
  provider : String
  providerUserId : Option String

namespace SocialChecks

variable (c : SocialChecks) (who : SocialIdentity) (s : SocialBooks)

def existingLink : Except String (Option (ℕ × SocialLink)) :=
  let byId := (givenId who.providerUserId).bind (s.linkById who.provider)
  let byEmail := if byId.isSome then none else s.linkByEmail c.same who.provider who.email
  pickSocialLink byId byEmail who.providerUserId

/-- A link without an id gets that of the login; a failure is ignored. -/
def completeLink (existing : Option (ℕ × SocialLink)) : SocialBooks :=
  match existing with
  | some (k, l) =>
    if (givenId who.providerUserId).isSome ∧ l.id? = none then
      (s.updateLink k { l with providerUserId := who.providerUserId }).getD s
    else s
  | none => s

def accountOf (existing : Option (ℕ × SocialLink)) : Option (ℕ × SocialAccount) :=
  match existing with
  | some (_, l) => (s.accounts.get? l.account).map fun a => (l.account, a)
  | none => s.accounts.find? fun _ a => c.same a.email who.email

def newLink (account : ℕ) : SocialLink := ⟨account, who.provider, who.email, who.providerUserId⟩

/-- `ok`: there is the role of an owner; the client accepted the terms. -/
def findOrCreate (ok : Bool) : SocialBooks × Except String SocialLogin :=
  match c.existingLink who s with
  | .error e => (s, .error e)
  | .ok existing =>
    let s := completeLink who s existing
    match c.accountOf who s existing with
    | some (id, account) =>
      match c.refused account with
      | some e => (s, .error e)
      | none =>
        if existing.isNone ∧ who.provider ∈ account.socialUnlinkedProviders then
          (s, .error c.unlinkedMessage)
        else
          -- a link that cannot be created is left out, and the login goes on
          (if existing.isNone then (s.createLink (newLink who id)).getD s else s,
            .ok ⟨id, existing.map Prod.fst⟩)
    | none =>
      if !ok then (s, .error c.createMessage)
      else
        let created : SocialBooks :=
          { s with accounts := s.accounts.insert ⟨who.email, true, []⟩ }
        match created.createLink (newLink who s.accounts.next) with
        | none => (created, .error "Unique constraint failed")
        | some linked => (linked, .ok ⟨s.accounts.next, none⟩)

end SocialChecks

/-! ## From inside the account -/

/-- An account that already has a session connects a provider; `who` has its id trimmed. -/
def SocialChecks.linkSocialAccount (c : SocialChecks) (account : ℕ) (who : SocialIdentity)
    (s : SocialBooks) : Except String SocialBooks :=
  let id := givenId who.providerUserId
  let byId := id.bind (s.linkById who.provider)
  let existing := s.linkByEmail c.same who.provider who.email
  let own := s.linkOf account who.provider
  let another := fun (l : ℕ × SocialLink) => l.2.id?.isSome && id.isSome && l.2.providerUserId != id
  if byId.any (·.2.account != account) || existing.any (·.2.account != account) ||
      existing.any another || own.any another then
    .error "already_linked_elsewhere"
  else if s.accounts.any fun k a => k != account && c.same a.email who.email then
    .error "email_belongs_to_another_account"
  else
    let upserted := match own with
      | none => s.createLink ⟨account, who.provider, who.email, id⟩
      | some (k, l) =>
        s.updateLink k { l with providerEmail := who.email, providerUserId := id.or l.providerUserId }
    match upserted with
    | none => .error "Unique constraint failed"
    | some s =>
      -- `allowSocialProviderAgain`
      .ok { s with accounts := s.accounts.modify account fun a =>
        { a with socialUnlinkedProviders := a.socialUnlinkedProviders.filter (· ≠ who.provider) } }

def SocialBooks.unlinkSocialAccount (account : ℕ) (provider : String) (s : SocialBooks) :
    SocialBooks where
  links := s.links.eraseAll fun _ l => l.account == account && l.provider == provider
  accounts := s.accounts.modify account fun a =>
    { a with socialUnlinkedProviders :=
        if provider ∈ a.socialUnlinkedProviders then a.socialUnlinkedProviders
        else a.socialUnlinkedProviders ++ [provider] }

/-! ## The two kinds -/

section Kinds

variable (normalizeEmail lower trim : String → String)

def staffChecks : SocialChecks where
  same stored email := lower stored == lower email
  refused a := if a.isActive then none else some "Invalid credentials"
  unlinkedMessage := SOCIAL_UNLINKED_MESSAGE
  createMessage := "Role BarbershopOwner não encontrada"

def clientChecks : SocialChecks where
  same stored email := stored == email
  refused _ := none
  unlinkedMessage := CLIENT_SOCIAL_UNLINKED_MESSAGE
  createMessage := "Aceite os termos de uso e a política de privacidade para criar a conta."

/-- A login, as the functions begin: with the e-mail normalized. -/
def SocialIdentity.normalized (who : SocialIdentity) : SocialIdentity :=
  { who with email := normalizeEmail who.email }

def SocialIdentity.trimmed (who : SocialIdentity) : SocialIdentity :=
  { who.normalized normalizeEmail with providerUserId := who.providerUserId.map trim }

def findOrCreateSocialUser (who : SocialIdentity) (ok : Bool) (s : SocialBooks) :
    SocialBooks × Except String SocialLogin :=
  (staffChecks lower).findOrCreate (who.normalized normalizeEmail) s ok

def findOrCreateSocialAccount (who : SocialIdentity) (acceptedTerms : Bool) (s : SocialBooks) :
    SocialBooks × Except String SocialLogin :=
  clientChecks.findOrCreate (who.normalized normalizeEmail) s acceptedTerms

def linkSocialAccountToUser (account : ℕ) (who : SocialIdentity) (s : SocialBooks) :
    Except String SocialBooks :=
  (staffChecks lower).linkSocialAccount account (who.trimmed normalizeEmail trim) s

def linkSocialAccountToClient (account : ℕ) (who : SocialIdentity) (s : SocialBooks) :
    Except String SocialBooks :=
  clientChecks.linkSocialAccount account (who.trimmed normalizeEmail trim) s

/-- What the platform's staff change of a user: the e-mail, and whether the account is active. -/
def updateUser (account : ℕ) (email : Option String) (isActive : Option Bool) (s : SocialBooks) :
    Except String SocialBooks :=
  match s.accounts.get? account with
  | none => .error "User not found"
  | some user =>
    let email := email.map normalizeEmail
    let other := email.filter (· ≠ normalizeEmail user.email)
    if email = some "" then .error "Invalid email"
    else if other.any fun e => s.accounts.any fun k a => k != account && lower a.email == lower e then
      .error "Outra conta já usa este e-mail."
    else .ok { s with accounts := s.accounts.modify account fun a =>
      { a with email := other.getD a.email, isActive := isActive.getD a.isActive } }

end Kinds

/-! ## Requests -/

inductive AccountKind where
  | staff
  | client
  deriving DecidableEq

inductive SocialRequest where
  | login (who : SocialIdentity) (ok : Bool)
  | link (account : ℕ) (who : SocialIdentity)
  | unlink (account : ℕ) (provider : String)
  | update (account : ℕ) (email : Option String) (isActive : Option Bool)

namespace AccountKind

variable (normalizeEmail lower trim : String → String)

def login (kind : AccountKind) (who : SocialIdentity) (ok : Bool) (s : SocialBooks) :
    SocialBooks × Except String SocialLogin :=
  match kind with
  | staff => findOrCreateSocialUser normalizeEmail lower who ok s
  | client => findOrCreateSocialAccount normalizeEmail who ok s

def link (kind : AccountKind) (account : ℕ) (who : SocialIdentity) (s : SocialBooks) :
    Except String SocialBooks :=
  match kind with
  | staff => linkSocialAccountToUser normalizeEmail lower trim account who s
  | client => linkSocialAccountToClient normalizeEmail trim account who s

/-- One request to the accounts of one kind; a refused login may leave what it wrote before. Who
connects or disconnects a provider is logged in, so the account is there. The e-mails of clients do
not change. -/
def step (kind : AccountKind) (s : SocialBooks) : SocialRequest → Option SocialBooks
  | .login who ok => some (kind.login normalizeEmail lower who ok s).1
  | .link account who =>
    if (s.accounts.get? account).isSome then
      (kind.link normalizeEmail lower trim account who s).toOption
    else none
  | .unlink account provider =>
    if (s.accounts.get? account).isSome then some (s.unlinkSocialAccount account provider) else none
  | .update account email isActive =>
    match kind with
    | staff => (updateUser normalizeEmail lower account email isActive s).toOption
    | client => none

/-- The tables of the two kinds are apart, and so are their runs. -/
def logins (kind : AccountKind) : Machine SocialBooks SocialRequest :=
  ⟨kind.step normalizeEmail lower trim⟩

end AccountKind

end Barbershop
