import Keylens.Basic
import Keylens.Library.Text

/-!
# Safe display of connection URLs

`redactUrl` replaces the password of a connection URL by `***`.  The three
splits it makes (at the first `://`, the last `@` and the first `:`) are the
whole of its logic, so the module first says what each of them does to a URL
that was written as `user:password@host`, and then compares two such URLs that
differ in the password only.
-/

namespace Keylens.Connection

open Keylens.Library

/-- What ends the scheme of a URL. -/
def schemeSeparator : Str :=
  "://".toList

/-- The delimiters that end an authority; none of them belongs in a username. -/
def isPathDelimiter (c : Char) : Bool :=
  c = '/' || c = '?' || c = '#'

/-- Mask the password in `<userinfo>@<host><suffix>`, or `none` when there is
nothing to mask. -/
def redactAuthority (remainder : Str) : Option Str := do
  -- The last `@`, so an unencoded `@` in the password stays left of the split.
  let pos ← rfind '@' remainder
  let (credentials, rest) := remainder.splitAt pos
  let host ← rest.dropPrefix? ['@']
  let (username, _password) ← splitOnce credentials [':']
  if username.any isPathDelimiter then
    some ("***@".toList ++ host)
  else
    some (username ++ ":***@".toList ++ host)

/-- A connection URL with its password replaced by `***`. -/
def redactUrl (url : Str) : Str :=
  match splitOnce url schemeSeparator with
  | some (scheme, remainder) =>
      match redactAuthority remainder with
      | some masked => scheme ++ schemeSeparator ++ masked
      | none => url
  | none => (redactAuthority url).getD url

/-! ## What the splits do to `user:password@host` -/

/-- What is printed in place of `username:password`. -/
def maskedUserinfo (username : Str) : Str :=
  if username.any isPathDelimiter then "***".toList else username ++ ":***".toList

/-- What is printed in place of the userinfo `credentials`. -/
def maskedCredentials (credentials : Str) : Str :=
  match splitOnce credentials [':'] with
  | some (username, _) => maskedUserinfo username
  | none => credentials

theorem splitOnce_colon {username password : Str} (fresh : ':' ∉ username) :
    splitOnce (username ++ ':' :: password) [':'] = some (username, password) := by
  have colonFresh : ¬[':'] <:+: username := by simpa [List.singleton_infix_iff] using fresh
  simpa using splitOnce_append password (by decide) colonFresh

theorem splitOnce_colon_eq_none {credentials : Str} :
    splitOnce credentials [':'] = none ↔ ':' ∉ credentials := by
  rw [splitOnce_eq_none_iff, List.singleton_infix_iff]

/-- A text either has no `:` or is a username, a `:` and a password. -/
theorem colon_cases (credentials : Str) :
    ':' ∉ credentials ∨
      ∃ username password, ':' ∉ username ∧ credentials = username ++ ':' :: password := by
  by_cases present : ':' ∈ credentials
  · obtain ⟨username, password, split, fresh⟩ := List.eq_append_cons_of_mem present
    exact .inr ⟨username, password, fresh, split⟩
  · exact .inl present

@[simp] theorem maskedCredentials_colon {username password : Str} (fresh : ':' ∉ username) :
    maskedCredentials (username ++ ':' :: password) = maskedUserinfo username := by
  simp [maskedCredentials, splitOnce_colon fresh]

theorem maskedCredentials_of_not_mem {credentials : Str} (fresh : ':' ∉ credentials) :
    maskedCredentials credentials = credentials := by
  simp [maskedCredentials, splitOnce_colon_eq_none.mpr fresh]

/-- An authority with userinfo is cut at its last `@`. -/
theorem redactAuthority_append (credentials : Str) {host : Str} (hostFresh : '@' ∉ host) :
    redactAuthority (credentials ++ '@' :: host) =
      (splitOnce credentials [':']).map fun parts =>
        if parts.1.any isPathDelimiter then "***@".toList ++ host
        else parts.1 ++ ":***@".toList ++ host := by
  have hostPrefix : List.dropPrefix? ('@' :: host) ['@'] = some host := by
    simp [List.dropPrefix?]
  rw [redactAuthority, rfind_append_cons credentials hostFresh]
  simp only [Option.bind_eq_bind, Option.bind_some, List.splitAt_eq, List.take_left,
    List.drop_left, hostPrefix]
  cases splitOnce credentials [':'] with
  | none => rfl
  | some parts =>
      simp only [Option.bind_some, Option.map_some]
      split <;> rfl

/-- An authority with userinfo is printed with masked credentials, whether or
not `redactAuthority` found anything to mask. -/
theorem redactAuthority_getD (credentials : Str) {host : Str} (hostFresh : '@' ∉ host) :
    (redactAuthority (credentials ++ '@' :: host)).getD (credentials ++ '@' :: host) =
      maskedCredentials credentials ++ '@' :: host := by
  rw [redactAuthority_append credentials hostFresh, maskedCredentials]
  cases splitOnce credentials [':'] with
  | none => rfl
  | some parts =>
      simp only [Option.map_some, Option.getD_some, maskedUserinfo]
      split
      · rfl
      · rw [List.append_assoc, List.append_assoc]
        rfl

theorem redactAuthority_of_not_mem {remainder : Str} (fresh : '@' ∉ remainder) :
    redactAuthority remainder = none := by
  simp [redactAuthority, rfind_eq_none fresh]

/-- With a scheme in front, the remainder is redacted on its own. -/
theorem redactUrl_of_split {url scheme remainder : Str}
    (split : splitOnce url schemeSeparator = some (scheme, remainder)) :
    redactUrl url =
      scheme ++ schemeSeparator ++ (redactAuthority remainder).getD remainder := by
  obtain ⟨urlEq, _⟩ := splitOnce_eq_some_iff.mp split
  simp only [redactUrl, split]
  cases redactAuthority remainder with
  | none => simpa using urlEq
  | some masked => simp

theorem redactUrl_of_no_scheme {url : Str} (absent : ¬schemeSeparator <:+: url) :
    redactUrl url = (redactAuthority url).getD url := by
  simp only [redactUrl, splitOnce_eq_none_iff.mpr absent]

theorem schemeSeparator_unbordered : Unbordered schemeSeparator := by decide

/-! ## Two URLs that differ in the password -/

/-- `user:password@host` with an optional scheme in front. -/
def connectionUrl (scheme : Option Str) (user password host : Str) : Str :=
  (scheme.elim [] (· ++ schemeSeparator)) ++ (user ++ ':' :: (password ++ '@' :: host))

/-- After a scheme, the userinfo is what stands before the last `@`. -/
theorem redactUrl_connectionUrl_some {scheme user password host : Str}
    (schemeFresh : ¬schemeSeparator <:+: scheme) (userFresh : ':' ∉ user) (hostFresh : '@' ∉ host) :
    redactUrl (connectionUrl (some scheme) user password host) =
      scheme ++ schemeSeparator ++ (maskedUserinfo user ++ '@' :: host) := by
  have split := splitOnce_append (user ++ ':' :: (password ++ '@' :: host))
    schemeSeparator_unbordered schemeFresh
  have masked := redactAuthority_getD (user ++ ':' :: password) hostFresh
  rw [maskedCredentials_colon userFresh, List.append_assoc, List.cons_append] at masked
  rw [connectionUrl, Option.elim_some, redactUrl_of_split split, masked]

/-- Without a scheme, the first `://` of the password is taken for the end of
one, and only what follows it is redacted. -/
theorem redactUrl_of_separator_in_password {user password host lead tail : Str}
    (userFresh : ':' ∉ user) (hostFresh : '@' ∉ host)
    (split : splitOnce (':' :: password) schemeSeparator = some (lead, tail)) :
    splitOnce (connectionUrl none user password host) schemeSeparator =
        some (user ++ lead, tail ++ '@' :: host) ∧
      redactUrl (connectionUrl none user password host) =
        user ++ lead ++ schemeSeparator ++ (maskedCredentials tail ++ '@' :: host) := by
  have passwordEq := (splitOnce_eq_some_iff.mp split).1
  have leadFree := splitOnce_before_free (by decide) split
  have whole : splitOnce (connectionUrl none user password host) schemeSeparator =
      some (user ++ lead, tail ++ '@' :: host) := by
    have urlEq : connectionUrl none user password host =
        user ++ (lead ++ schemeSeparator ++ (tail ++ '@' :: host)) := by
      simp only [connectionUrl, Option.elim_none, List.nil_append]
      rw [← List.cons_append, passwordEq]
      simp only [List.append_assoc]
    rw [urlEq, show schemeSeparator = [':', '/', '/'] from rfl, splitOnce_append_left userFresh]
    have := splitOnce_append (tail ++ '@' :: host) schemeSeparator_unbordered leadFree
    rw [show schemeSeparator = [':', '/', '/'] from rfl] at this
    rw [this]
    rfl
  exact ⟨whole, by rw [redactUrl_of_split whole, redactAuthority_getD _ hostFresh]⟩

theorem separator_free_userinfo {user password : Str} (userFresh : ':' ∉ user)
    (passwordFree : ¬schemeSeparator <:+: ':' :: password) :
    ¬schemeSeparator <:+: user ++ ':' :: password := by
  rw [← splitOnce_eq_none_iff] at passwordFree ⊢
  rw [show schemeSeparator = [':', '/', '/'] from rfl] at passwordFree ⊢
  rw [splitOnce_append_left userFresh, passwordFree, Option.map_none]

theorem connectionUrl_none (user password host : Str) :
    connectionUrl none user password host = (user ++ ':' :: password) ++ '@' :: host := by
  simp [connectionUrl]

/-- Without a scheme, a `://` in the host part hides the userinfo from
`redactUrl`, which then prints the URL as it is. -/
theorem redactUrl_of_separator_in_host {user password host lead tail : Str}
    (userFresh : ':' ∉ user) (hostFresh : '@' ∉ host)
    (passwordFree : ¬schemeSeparator <:+: ':' :: password)
    (split : splitOnce host schemeSeparator = some (lead, tail)) :
    splitOnce (connectionUrl none user password host) schemeSeparator =
        some ((user ++ ':' :: password) ++ '@' :: lead, tail) ∧
      redactUrl (connectionUrl none user password host) =
        connectionUrl none user password host := by
  have hostEq := (splitOnce_eq_some_iff.mp split).1
  have leadFree := splitOnce_before_free (by decide) split
  have schemeFree : ¬schemeSeparator <:+: (user ++ ':' :: password) ++ '@' :: lead := by
    rw [infix_append_cons_iff (by decide)]
    exact not_or.mpr ⟨separator_free_userinfo userFresh passwordFree, leadFree⟩
  have urlEq : connectionUrl none user password host =
      ((user ++ ':' :: password) ++ '@' :: lead) ++ schemeSeparator ++ tail := by
    rw [connectionUrl_none, hostEq]
    simp
  have tailFresh : '@' ∉ tail := fun inTail =>
    hostFresh (hostEq ▸ List.mem_append_right _ inTail)
  have whole := splitOnce_append tail schemeSeparator_unbordered schemeFree
  rw [← urlEq] at whole
  refine ⟨whole, ?_⟩
  rw [redactUrl_of_split whole, redactAuthority_of_not_mem tailFresh, Option.getD_none, urlEq]

/-- What is printed for a userinfo has no `://`. -/
theorem separator_free_maskedUserinfo {user : Str} (userFresh : ':' ∉ user) :
    ¬schemeSeparator <:+: maskedUserinfo user := by
  rw [maskedUserinfo]
  split
  · decide
  · exact separator_free_userinfo userFresh (by decide)

/-- With no `://` anywhere, a URL without a scheme is all authority. -/
theorem redactUrl_of_separator_free {user password host : Str}
    (userFresh : ':' ∉ user) (hostFresh : '@' ∉ host)
    (passwordFree : ¬schemeSeparator <:+: ':' :: password) (hostFree : ¬schemeSeparator <:+: host) :
    ¬schemeSeparator <:+: redactUrl (connectionUrl none user password host) ∧
      redactUrl (connectionUrl none user password host) =
        maskedUserinfo user ++ '@' :: host := by
  have urlFree : ¬schemeSeparator <:+: (user ++ ':' :: password) ++ '@' :: host := by
    rw [infix_append_cons_iff (by decide)]
    exact not_or.mpr ⟨separator_free_userinfo userFresh passwordFree, hostFree⟩
  have printed : redactUrl (connectionUrl none user password host) =
      maskedUserinfo user ++ '@' :: host := by
    rw [connectionUrl_none, redactUrl_of_no_scheme urlFree, redactAuthority_getD _ hostFresh,
      maskedCredentials_colon userFresh]
  refine ⟨?_, printed⟩
  rw [printed, infix_append_cons_iff (by decide), not_or]
  exact ⟨separator_free_maskedUserinfo userFresh, hostFree⟩

/-! ## Redacting twice -/

@[simp] theorem maskedCredentials_maskedCredentials (credentials : Str) :
    maskedCredentials (maskedCredentials credentials) = maskedCredentials credentials := by
  rcases colon_cases credentials with fresh | ⟨username, password, fresh, rfl⟩
  · rw [maskedCredentials_of_not_mem fresh, maskedCredentials_of_not_mem fresh]
  · rw [maskedCredentials_colon fresh]
    by_cases unreadable : username.any isPathDelimiter
    · rw [maskedUserinfo, if_pos unreadable]
      exact maskedCredentials_of_not_mem (by decide)
    · have masked : maskedUserinfo username = username ++ ':' :: "***".toList := by
        rw [maskedUserinfo, if_neg unreadable]
        rfl
      rw [masked, maskedCredentials_colon fresh, masked]

/-- What is printed for an authority is printed again as it is. -/
theorem redactAuthority_redacted (remainder : Str) :
    let printed := (redactAuthority remainder).getD remainder
    (redactAuthority printed).getD printed = printed := by
  dsimp only
  by_cases present : '@' ∈ remainder
  · rcases exists_last_of_mem present with ⟨credentials, host, rfl, hostFresh⟩
    rw [redactAuthority_getD credentials hostFresh, redactAuthority_getD _ hostFresh,
      maskedCredentials_maskedCredentials]
  · rw [redactAuthority_of_not_mem present, Option.getD_none, redactAuthority_of_not_mem present,
      Option.getD_none]

/-- Masking does not make a `://`. -/
theorem separator_free_redacted {url : Str} (free : ¬schemeSeparator <:+: url) :
    ¬schemeSeparator <:+: (redactAuthority url).getD url := by
  by_cases present : '@' ∈ url
  · rcases exists_last_of_mem present with ⟨credentials, host, rfl, hostFresh⟩
    rw [infix_append_cons_iff (by decide), not_or] at free
    rw [redactAuthority_getD credentials hostFresh, infix_append_cons_iff (by decide), not_or]
    refine ⟨?_, free.2⟩
    rcases colon_cases credentials with fresh | ⟨username, password, fresh, rfl⟩
    · rw [maskedCredentials_of_not_mem fresh]
      exact free.1
    · rw [maskedCredentials_colon fresh]
      exact separator_free_maskedUserinfo fresh
  · rw [redactAuthority_of_not_mem present, Option.getD_none]
    exact free

/-- The second pass splits the URL where the first one did, and finds the mask where the
password was. -/
theorem redactUrl_idempotent (url : Str) : redactUrl (redactUrl url) = redactUrl url := by
  cases split : splitOnce url schemeSeparator with
  | some parts =>
      rcases parts with ⟨scheme, remainder⟩
      have schemeFree := splitOnce_before_free (by decide) split
      rw [redactUrl_of_split split]
      rw [redactUrl_of_split (splitOnce_append _ schemeSeparator_unbordered schemeFree),
        redactAuthority_redacted]
  | none =>
      have free := splitOnce_eq_none_iff.mp split
      rw [redactUrl_of_no_scheme free, redactUrl_of_no_scheme (separator_free_redacted free),
        redactAuthority_redacted]

/-! ## Equal prints -/

/-- Two credential texts that `redactUrl` prints alike although they differ:
the same name before the first `:`, two names that are both unreadable, or one
unreadable name beside a literal `***`. -/
inductive MaskedAlike : Str → Str → Prop where
  | sameName {name left right : Str} : ':' ∉ name →
      MaskedAlike (name ++ ':' :: left) (name ++ ':' :: right)
  | unreadable {leftName left rightName right : Str} :
      ':' ∉ leftName → ':' ∉ rightName →
      leftName.any isPathDelimiter → rightName.any isPathDelimiter →
      MaskedAlike (leftName ++ ':' :: left) (rightName ++ ':' :: right)
  | starsLeft {name rest : Str} : ':' ∉ name → name.any isPathDelimiter →
      MaskedAlike "***".toList (name ++ ':' :: rest)
  | starsRight {name rest : Str} : ':' ∉ name → name.any isPathDelimiter →
      MaskedAlike (name ++ ':' :: rest) "***".toList

/-- Masked credentials never end in a readable `***` without its `:`. -/
theorem maskedUserinfo_injOn {left right : Str}
    (equal : maskedUserinfo left = maskedUserinfo right) :
    left = right ∨ (left.any isPathDelimiter ∧ right.any isPathDelimiter) := by
  have stars (name : Str) : "***".toList ≠ name ++ ":***".toList := fun equal => by
    have colon : ':' ∈ "***".toList := equal ▸ by simp
    exact absurd colon (by decide)
  rw [maskedUserinfo, maskedUserinfo] at equal
  split at equal <;> split at equal
  next leftBad rightBad => exact .inr ⟨leftBad, rightBad⟩
  next => exact absurd equal (stars right)
  next => exact absurd equal.symm (stars left)
  next => exact .inl (List.append_cancel_right equal)

theorem maskedUserinfo_eq_of_not_mem {name text : Str} (fresh : ':' ∉ text)
    (equal : maskedUserinfo name = text) :
    text = "***".toList ∧ name.any isPathDelimiter := by
  rw [maskedUserinfo] at equal
  split at equal
  next bad => exact ⟨equal.symm, bad⟩
  next => exact absurd (equal ▸ by simp) fresh

theorem maskedCredentials_eq_iff {left right : Str} :
    maskedCredentials left = maskedCredentials right ↔ left = right ∨ MaskedAlike left right := by
  constructor
  · intro equal
    rcases colon_cases left with leftFresh | ⟨leftName, leftRest, leftFresh, rfl⟩ <;>
      rcases colon_cases right with rightFresh | ⟨rightName, rightRest, rightFresh, rfl⟩
    · rw [maskedCredentials_of_not_mem leftFresh, maskedCredentials_of_not_mem rightFresh] at equal
      exact .inl equal
    · rw [maskedCredentials_of_not_mem leftFresh, maskedCredentials_colon rightFresh] at equal
      obtain ⟨rfl, bad⟩ := maskedUserinfo_eq_of_not_mem leftFresh equal.symm
      exact .inr (.starsLeft rightFresh bad)
    · rw [maskedCredentials_colon leftFresh, maskedCredentials_of_not_mem rightFresh] at equal
      obtain ⟨rfl, bad⟩ := maskedUserinfo_eq_of_not_mem rightFresh equal
      exact .inr (.starsRight leftFresh bad)
    · rw [maskedCredentials_colon leftFresh, maskedCredentials_colon rightFresh] at equal
      rcases maskedUserinfo_injOn equal with rfl | ⟨leftBad, rightBad⟩
      · exact .inr (.sameName leftFresh)
      · exact .inr (.unreadable leftFresh rightFresh leftBad rightBad)
  · have stars : maskedCredentials "***".toList = "***".toList :=
      maskedCredentials_of_not_mem (by decide)
    rintro (rfl | alike)
    · rfl
    · cases alike with
      | sameName fresh => rw [maskedCredentials_colon fresh, maskedCredentials_colon fresh]
      | unreadable leftFresh rightFresh leftBad rightBad =>
          rw [maskedCredentials_colon leftFresh, maskedCredentials_colon rightFresh,
            maskedUserinfo, maskedUserinfo, if_pos leftBad, if_pos rightBad]
      | starsLeft fresh bad => rw [stars, maskedCredentials_colon fresh, maskedUserinfo, if_pos bad]
      | starsRight fresh bad =>
          rw [stars, maskedCredentials_colon fresh, maskedUserinfo, if_pos bad]

/-- When two URLs that differ in the password only are printed alike.  A scheme
settles it.  Without one, `://` must not occur from the `:` of the password on,
short of coincidences in what the masking leaves readable. -/
def PasswordsHidden (scheme : Option Str) (host left right : Str) : Prop :=
  scheme.isSome ∨ left = right ∨
    (¬schemeSeparator <:+: ':' :: left ∧ ¬schemeSeparator <:+: ':' :: right ∧
      ¬schemeSeparator <:+: host) ∨
    ∃ lead leftTail rightTail,
      splitOnce (':' :: left) schemeSeparator = some (lead, leftTail) ∧
      splitOnce (':' :: right) schemeSeparator = some (lead, rightTail) ∧
      MaskedAlike leftTail rightTail

section Schemeless

variable {user host left right lead leftTail rightTail : Str}

/-- Two passwords that both contain a `://`. -/
theorem redactUrl_eq_iff_of_separators {leftLead rightLead : Str}
    (userFresh : ':' ∉ user) (hostFresh : '@' ∉ host)
    (leftSplit : splitOnce (':' :: left) schemeSeparator = some (leftLead, leftTail))
    (rightSplit : splitOnce (':' :: right) schemeSeparator = some (rightLead, rightTail)) :
    redactUrl (connectionUrl none user left host) =
        redactUrl (connectionUrl none user right host) ↔
      leftLead = rightLead ∧ (leftTail = rightTail ∨ MaskedAlike leftTail rightTail) := by
  rcases redactUrl_of_separator_in_password userFresh hostFresh leftSplit with ⟨leftWhole, leftEq⟩
  rcases redactUrl_of_separator_in_password userFresh hostFresh rightSplit
    with ⟨rightWhole, rightEq⟩
  have leftFree := splitOnce_before_free (by decide) leftWhole
  have rightFree := splitOnce_before_free (by decide) rightWhole
  rw [leftEq, rightEq]
  constructor
  · intro equal
    -- Both sides split at the same first `://`.
    have splits := congrArg (splitOnce · schemeSeparator) equal
    simp only [splitOnce_append _ schemeSeparator_unbordered leftFree,
      splitOnce_append _ schemeSeparator_unbordered rightFree, Option.some.injEq,
      Prod.mk.injEq] at splits
    refine ⟨List.append_cancel_left splits.1, maskedCredentials_eq_iff.mp ?_⟩
    exact List.append_cancel_right splits.2
  · intro alike
    rw [alike.1, maskedCredentials_eq_iff.mpr alike.2]

/-- A password with a `://` is never printed like one without. -/
theorem redactUrl_ne_of_separator (userFresh : ':' ∉ user) (hostFresh : '@' ∉ host)
    (split : splitOnce (':' :: left) schemeSeparator = some (lead, leftTail))
    (rightFree : ¬schemeSeparator <:+: ':' :: right) :
    redactUrl (connectionUrl none user left host) ≠
      redactUrl (connectionUrl none user right host) := by
  rcases redactUrl_of_separator_in_password userFresh hostFresh split with ⟨leftWhole, leftEq⟩
  have leftFree := splitOnce_before_free (by decide) leftWhole
  have leftSplit := splitOnce_append (maskedCredentials leftTail ++ '@' :: host)
    schemeSeparator_unbordered leftFree
  rw [leftEq]
  intro equal
  cases hostSplit : splitOnce host schemeSeparator with
  | none =>
      have free := (redactUrl_of_separator_free userFresh hostFresh rightFree
        (splitOnce_eq_none_iff.mp hostSplit)).1
      rw [← equal, ← splitOnce_eq_none_iff, leftSplit] at free
      cases free
  | some parts =>
      -- The `@` would have to stand after the `://` of the host part.
      rcases redactUrl_of_separator_in_host userFresh hostFresh rightFree hostSplit
        with ⟨rightWhole, rightEq⟩
      rw [equal, rightEq, rightWhole] at leftSplit
      have tailEq : parts.2 = maskedCredentials leftTail ++ '@' :: host :=
        (Prod.mk.inj (Option.some.inj leftSplit)).2
      apply hostFresh
      rw [(splitOnce_eq_some_iff.mp hostSplit).1, tailEq]
      simp

/-- Two passwords without a `://`. -/
theorem redactUrl_eq_iff_of_free (userFresh : ':' ∉ user) (hostFresh : '@' ∉ host)
    (leftFree : ¬schemeSeparator <:+: ':' :: left)
    (rightFree : ¬schemeSeparator <:+: ':' :: right) :
    redactUrl (connectionUrl none user left host) =
        redactUrl (connectionUrl none user right host) ↔
      left = right ∨ ¬schemeSeparator <:+: host := by
  cases hostSplit : splitOnce host schemeSeparator with
  | none =>
      have hostFree := splitOnce_eq_none_iff.mp hostSplit
      rw [(redactUrl_of_separator_free userFresh hostFresh leftFree hostFree).2,
        (redactUrl_of_separator_free userFresh hostFresh rightFree hostFree).2]
      exact iff_of_true rfl (.inr hostFree)
  | some parts =>
      have occurs : schemeSeparator <:+: host := by
        by_contra absent
        rw [splitOnce_eq_none_iff.mpr absent] at hostSplit
        cases hostSplit
      rw [(redactUrl_of_separator_in_host userFresh hostFresh leftFree hostSplit).2,
        (redactUrl_of_separator_in_host userFresh hostFresh rightFree hostSplit).2]
      rw [connectionUrl_none, connectionUrl_none, List.append_left_inj, List.append_right_inj,
        List.cons.injEq]
      simp only [true_and, occurs, not_true_eq_false, or_false]

/-- The condition for two passwords that both contain a `://`. -/
theorem passwordsHidden_iff_of_separators {leftLead rightLead : Str}
    (leftSplit : splitOnce (':' :: left) schemeSeparator = some (leftLead, leftTail))
    (rightSplit : splitOnce (':' :: right) schemeSeparator = some (rightLead, rightTail)) :
    PasswordsHidden none host left right ↔
      leftLead = rightLead ∧ (leftTail = rightTail ∨ MaskedAlike leftTail rightTail) := by
  have leftEq := (splitOnce_eq_some_iff.mp leftSplit).1
  have rightEq := (splitOnce_eq_some_iff.mp rightSplit).1
  constructor
  · intro hidden
    rcases hidden with isSome | equal | free | ⟨_, _, _, leftAt, rightAt, alike⟩
    · cases isSome
    · rw [equal, rightSplit] at leftSplit
      cases leftSplit
      exact ⟨rfl, .inl rfl⟩
    · exact absurd (infix_of_splitOnce leftSplit) free.1
    · rw [leftSplit] at leftAt
      rw [rightSplit] at rightAt
      cases leftAt
      cases rightAt
      exact ⟨rfl, .inr alike⟩
  · rintro ⟨rfl, rfl | alike⟩
    · have same : ':' :: left = ':' :: right := by rw [leftEq, rightEq]
      exact .inr (.inl (List.cons.inj same).2)
    · exact .inr (.inr (.inr ⟨leftLead, leftTail, rightTail, leftSplit, rightSplit, alike⟩))

/-- The condition for two passwords without a `://`. -/
theorem passwordsHidden_iff_of_free (leftFree : ¬schemeSeparator <:+: ':' :: left)
    (rightFree : ¬schemeSeparator <:+: ':' :: right) :
    PasswordsHidden none host left right ↔ left = right ∨ ¬schemeSeparator <:+: host := by
  have unsplit : splitOnce (':' :: left) schemeSeparator = none :=
    splitOnce_eq_none_iff.mpr leftFree
  simp only [PasswordsHidden, Option.isSome_none, Bool.false_eq_true, false_or, leftFree,
    rightFree, not_false_eq_true, true_and, unsplit, reduceCtorEq, false_and, exists_false,
    or_false]

/-- When a single one of two passwords contains a `://`, the condition fails. -/
theorem not_passwordsHidden_of_separator (occurs : schemeSeparator <:+: ':' :: left)
    (rightFree : ¬schemeSeparator <:+: ':' :: right) :
    ¬PasswordsHidden none host left right ∧ ¬PasswordsHidden none host right left := by
  have unsplit : splitOnce (':' :: right) schemeSeparator = none :=
    splitOnce_eq_none_iff.mpr rightFree
  have different : left ≠ right := fun equal => rightFree (equal ▸ occurs)
  simp only [PasswordsHidden, Option.isSome_none, Bool.false_eq_true, different, different.symm,
    occurs, unsplit, reduceCtorEq, not_true_eq_false, false_and, and_false, exists_false, or_false,
    not_false_eq_true, and_self]

end Schemeless

/-- Exactly when the printed URL does not depend on which of two passwords it
was built with. -/
theorem redactUrl_password_independent_iff {scheme : Option Str} {user host left right : Str}
    (schemeFree : ∀ prefixed ∈ scheme, ¬schemeSeparator <:+: prefixed)
    (userFresh : ':' ∉ user) (hostFresh : '@' ∉ host) :
    redactUrl (connectionUrl scheme user left host) =
        redactUrl (connectionUrl scheme user right host) ↔
      PasswordsHidden scheme host left right := by
  cases scheme with
  | some prefixed =>
      have free := schemeFree prefixed rfl
      rw [redactUrl_connectionUrl_some free userFresh hostFresh,
        redactUrl_connectionUrl_some free userFresh hostFresh]
      exact iff_of_true rfl (.inl rfl)
  | none =>
      cases leftSplit : splitOnce (':' :: left) schemeSeparator with
      | none =>
          have leftFree := splitOnce_eq_none_iff.mp leftSplit
          cases rightSplit : splitOnce (':' :: right) schemeSeparator with
          | none =>
              have rightFree := splitOnce_eq_none_iff.mp rightSplit
              rw [redactUrl_eq_iff_of_free userFresh hostFresh leftFree rightFree,
                passwordsHidden_iff_of_free leftFree rightFree]
          | some parts =>
              apply iff_of_false
              · exact (redactUrl_ne_of_separator userFresh hostFresh rightSplit leftFree).symm
              · exact (not_passwordsHidden_of_separator (infix_of_splitOnce rightSplit) leftFree).2
      | some leftParts =>
          cases rightSplit : splitOnce (':' :: right) schemeSeparator with
          | none =>
              have rightFree := splitOnce_eq_none_iff.mp rightSplit
              apply iff_of_false
              · exact redactUrl_ne_of_separator userFresh hostFresh leftSplit rightFree
              · exact (not_passwordsHidden_of_separator (infix_of_splitOnce leftSplit) rightFree).1
          | some rightParts =>
              rw [redactUrl_eq_iff_of_separators userFresh hostFresh leftSplit rightSplit,
                passwordsHidden_iff_of_separators leftSplit rightSplit]

/-- `user://hunter2@host`: the password begins with the slashes that complete a
scheme separator, and is printed in full. -/
theorem redactUrl_prints_schemeless_password :
    redactUrl (connectionUrl none "user".toList "//hunter2".toList "host".toList) =
        "user://hunter2@host".toList ∧
      ¬∀ (scheme : Option Str) (user host left right : Str),
        (∀ prefixed ∈ scheme, ¬schemeSeparator <:+: prefixed) → ':' ∉ user → '@' ∉ host →
        redactUrl (connectionUrl scheme user left host) =
          redactUrl (connectionUrl scheme user right host) := by
  refine ⟨by decide, fun hidden => ?_⟩
  have equal := hidden none "user".toList "host".toList "//hunter2".toList "other".toList
    (by simp) (by decide) (by decide)
  revert equal
  decide

/-- A password of a URL with a scheme is masked whatever it contains. -/
theorem redactUrl_password_independent_iff_rediss :
    redactUrl (connectionUrl (some "rediss".toList) "admin".toList "a://b@c:d".toList
        "db:6379".toList) =
      redactUrl (connectionUrl (some "rediss".toList) "admin".toList "hunter2".toList
        "db:6379".toList) :=
  (redactUrl_password_independent_iff (by simp; decide) (by decide) (by decide)).mpr (.inl rfl)

end Keylens.Connection
