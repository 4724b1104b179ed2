/-!
The fields that a query can address. Every field has one dotted path, the place of its value in
the data of a document; `fromPath?` and `resolve?` find a field by that path, the latter also by a
short name that queries may use. Free text is a field of its own: it has no value in a document and
stands for the four text fields together.
-/

set_option autoImplicit false

namespace ShardSearch

/-- The sort values that index pointers carry. -/
inductive IndexKey where
  | memberCount
  | onlineCount
deriving DecidableEq

inductive Field where
  | freeText
  | invite
  | inviterUsername
  | inviterGlobalName
  | inviterId
  | guildId
  | guildName
  | guildDescription
  | guildIcon
  | guildFeatures
  | guildVanityUrlCode
  | guildNsfw
  | guildPremiumTier
  | guildVerificationLevel
  | guildPremiumSubscriptionCount
  | channelId
  | channelName
  | profileTag
  | profileTraits
  | memberCount
  | onlineCount
deriving DecidableEq

namespace Field

def all : List Field :=
  [freeText, invite, inviterUsername, inviterGlobalName, inviterId, guildId, guildName,
    guildDescription, guildIcon, guildFeatures, guildVanityUrlCode, guildNsfw, guildPremiumTier,
    guildVerificationLevel, guildPremiumSubscriptionCount, channelId, channelName, profileTag,
    profileTraits, memberCount, onlineCount]

theorem mem_all (f : Field) : f ∈ all := by cases f <;> decide

def path : Field → String
  | freeText => "default"
  | invite => "invite"
  | inviterUsername => "inviter.username"
  | inviterGlobalName => "inviter.global_name"
  | inviterId => "inviter.id"
  | guildId => "guild.id"
  | guildName => "guild.name"
  | guildDescription => "guild.description"
  | guildIcon => "guild.icon"
  | guildFeatures => "guild.features"
  | guildVanityUrlCode => "guild.vanity_url_code"
  | guildNsfw => "guild.nsfw"
  | guildPremiumTier => "guild.premium_tier"
  | guildVerificationLevel => "guild.verification_level"
  | guildPremiumSubscriptionCount => "guild.premium_subscription_count"
  | channelId => "channel.id"
  | channelName => "channel.name"
  | profileTag => "profile.tag"
  | profileTraits => "profile.traits"
  | memberCount => "profile.member_count"
  | onlineCount => "profile.online_count"

def fromPath? (path : String) : Option Field := all.find? fun f ↦ f.path == path

/-- The short names of fields in queries. -/
def aliases : List (String × Field) :=
  [("members", memberCount), ("online", onlineCount), ("boosts", guildPremiumSubscriptionCount),
    ("tier", guildPremiumTier), ("nsfw", guildNsfw), ("verification", guildVerificationLevel),
    ("feature", guildFeatures), ("global_name", inviterGlobalName), ("tag", profileTag),
    ("trait", profileTraits)]

/-- The field that a query calls `name`: short names come before paths. -/
def resolve? (name : String) : Option Field := (aliases.lookup name).or (fromPath? name)

/-- The directory of the field's keyword shards. -/
def indexDirectory (f : Field) : String :=
  String.ofList (f.path.toList.map fun c ↦ if c = '.' then '_' else c)

def indexKey? : Field → Option IndexKey
  | memberCount => some .memberCount
  | onlineCount => some .onlineCount
  | _ => none

/-- The fields that free text is looked up in. -/
def textFields : List Field := [guildName, guildDescription, profileTag, profileTraits]

theorem fromPath?_path (f : Field) : fromPath? f.path = some f := by
  cases f <;> decide

theorem path_injective {f g : Field} (h : f.path = g.path) : f = g := by
  have hf := fromPath?_path f
  rw [h, fromPath?_path] at hf
  exact (Option.some.inj hf).symm

theorem path_of_fromPath? {path : String} {f : Field} (h : fromPath? path = some f) :
    f.path = path := by
  have := List.find?_some h
  rwa [beq_iff_eq] at this

end Field

end ShardSearch
