/-
This file models the store of the gateway as far as its proxy reads it: the applications
and their tokens, with the statements that write them. A table cannot hold an
application under another name or a token without its application, so those
constraints are part of the tables.
-/

import AiSwitcher.Library.Json

namespace AiSwitcher.Gateway

open JavaScript

inductive AppState where
  | active
  | revoked
  deriving DecidableEq

/-- An application. What only the proxy and the console read of it is one value, its
settings. -/
structure GatewayApp (Settings : Type) where
  name : String
  settings : Settings
  state : AppState
  createdAt : String
  lastUsedAt : Option String
  deriving DecidableEq

structure TokenRecord where
  app : String
  tokenPrefix : String
  hash : String
  createdAt : String
  expiresAt : Option String
  deriving DecidableEq

/-- Set an expiry on a token that has none. -/
def TokenRecord.expire (at_ : String) (token : TokenRecord) : TokenRecord :=
  if token.expiresAt = none then { token with expiresAt := some at_ } else token

/-- The tables of the applications and the tokens. -/
structure Tables (Settings : Type) where
  apps : Members (GatewayApp Settings)
  tokens : List TokenRecord
  named : ∀ field ∈ apps, field.2.name = field.1
  owned : ∀ token ∈ tokens, (apps.get token.app).isSome = true

inductive Write (Settings : Type) where
  | putApp (app : GatewayApp Settings)
  | addToken (rec : TokenRecord)
  | expireTokens (app at_ : String)
  | revokeApp (name : String)
  deriving DecidableEq

variable {Settings : Type}

/-- What a write does to the applications. -/
def Write.apps (apps : Members (GatewayApp Settings)) : Write Settings → Members (GatewayApp Settings)
  | .putApp app => apps.set app.name app
  | .revokeApp name =>
      match apps.get name with
      | some app => apps.set name { app with state := .revoked }
      | none => apps
  | .addToken _ | .expireTokens _ _ => apps

/-- What a write does to the tokens. -/
def Write.tokens (tokens : List TokenRecord) : Write Settings → List TokenRecord
  | .addToken rec => tokens ++ [rec]
  | .expireTokens app at_ => tokens.map fun token =>
      if token.app = app then token.expire at_ else token
  | .putApp _ | .revokeApp _ => tokens

theorem isSome_get_apps {apps : Members (GatewayApp Settings)} {name : String}
    (isThere : (apps.get name).isSome = true) (write : Write Settings) :
    ((write.apps apps).get name).isSome = true := by
  cases write with
  | putApp app =>
    rw [Write.apps, Members.get_set]
    split
    · rfl
    · exact isThere
  | revokeApp revoked =>
    rw [Write.apps]
    split
    · rw [Members.get_set]
      split
      · rfl
      · exact isThere
    · exact isThere
  | addToken rec => exact isThere
  | expireTokens app at_ => exact isThere

theorem named_apps {apps : Members (GatewayApp Settings)}
    (named : ∀ field ∈ apps, field.2.name = field.1) (write : Write Settings) :
    ∀ field ∈ write.apps apps, field.2.name = field.1 := by
  intro field member
  cases write with
  | putApp app =>
    obtain rfl | member := Members.mem_set member
    · rfl
    · exact named field member
  | revokeApp name =>
    rw [Write.apps] at member
    split at member
    next app isApp =>
      obtain rfl | member := Members.mem_set member
      · exact (named _ (Members.mem_of_get isApp) : app.name = name)
      · exact named field member
    next => exact named field member
  | addToken rec => exact named field member
  | expireTokens app at_ => exact named field member

@[simp] theorem app_expire (at_ : String) (token : TokenRecord) :
    (token.expire at_).app = token.app := by
  unfold TokenRecord.expire
  split <;> rfl

theorem app_expireTokens {tokens : List TokenRecord} {app at_ : String} {token : TokenRecord}
    (member : token ∈ (Write.expireTokens app at_ : Write Settings).tokens tokens) :
    ∃ before ∈ tokens, before.app = token.app := by
  obtain ⟨before, inTokens, rfl⟩ := List.mem_map.mp member
  refine ⟨before, inTokens, ?_⟩
  split
  · exact (app_expire at_ before).symm
  · rfl

namespace Tables

variable (tables : Tables Settings)

def getApp (name : String) : Option (GatewayApp Settings) := tables.apps.get name

def listApps : List (GatewayApp Settings) := tables.apps.map Prod.snd

def tokensFor (app : String) : List TokenRecord :=
  tables.tokens.filter fun token => token.app = app

/-- The store takes a write: a token needs its application. -/
def Accepts : Write Settings → Prop
  | .addToken rec => (tables.apps.get rec.app).isSome = true
  | _ => True

instance (write : Write Settings) : Decidable (tables.Accepts write) :=
  match write with
  | .addToken rec => inferInstanceAs (Decidable ((tables.apps.get rec.app).isSome = true))
  | .putApp _ | .expireTokens _ _ | .revokeApp _ => inferInstanceAs (Decidable True)

/-- Write to the store; a token without its application changes nothing. -/
def write (write : Write Settings) : Tables Settings :=
  if accepted : tables.Accepts write then
    { apps := write.apps tables.apps
      tokens := write.tokens tables.tokens
      named := named_apps tables.named write
      owned := by
        intro token member
        refine isSome_get_apps ?_ write
        cases write with
        | putApp app => exact tables.owned token member
        | revokeApp name => exact tables.owned token member
        | expireTokens app at_ =>
          obtain ⟨before, inTokens, same⟩ := app_expireTokens member
          exact same ▸ tables.owned before inTokens
        | addToken rec =>
          obtain member | member := List.mem_append.mp member
          · exact tables.owned token member
          · exact List.mem_singleton.mp member ▸ accepted }
  else tables

end Tables

end AiSwitcher.Gateway
