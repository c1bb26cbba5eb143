import BePyEco.Accounts.ActorKinds
import BePyEco.Accounts.CanonicalEmails
import BePyEco.Accounts.CommittedTogether
import BePyEco.Accounts.DeadSessions
import BePyEco.Accounts.IdempotentRetries
import BePyEco.Accounts.LinkedPasswords
import BePyEco.Accounts.ProvenDevices
import BePyEco.Accounts.VerifiedEmails
import BePyEco.Catalog.CategoryTree
import BePyEco.Catalog.CombinationKeys
import BePyEco.Catalog.ConcurrentAttributes
import BePyEco.Catalog.FiledProducts
import BePyEco.Catalog.LegalCombinations
import BePyEco.Catalog.PublishedEvents
import BePyEco.Catalog.Reparenting
import BePyEco.Common.IdempotentCalls
import BePyEco.Common.ProblemDetails
import BePyEco.Media.Lifecycle
import BePyEco.Media.Verdicts
import BePyEco.Translation.Drafts
import BePyEco.Translation.LocalizedReads
import BePyEco.Common.Redaction
import BePyEco.Accounts.TruthfulAudit
import BePyEco.Accounts.GoogleControl
import BePyEco.Accounts.TotalGoogle
import BePyEco.Accounts.EscapedErrors
import BePyEco.Common.GeneratedIds
import BePyEco.Common.JsonText
import BePyEco.Common.AcceptLanguage
import BePyEco.Localization.SuggestLocale
import BePyEco.Localization.Negotiation
import BePyEco.Catalog.ContentLanguage
import BePyEco.Api.Permanence
import BePyEco.Api.Answers
import BePyEco.Api.StaffTrust
import BePyEco.Api.AuditTrail
import BePyEco.Api.SessionOrigins
import BePyEco.Api.LocaleChoices
import BePyEco.Api.Revocations
import BePyEco.Api.Accountability
import BePyEco.Api.MailedTokens
import BePyEco.Api.RequestIds
