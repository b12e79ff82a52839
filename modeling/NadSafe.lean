import NadSafe.WebLock
import NadSafe.WebPin
import NadSafe.WebAccounts
import NadSafe.CrossTab
import NadSafe.ExtensionHandlers
import NadSafe.ExtensionContracts
import NadSafe.ExtensionLock
import NadSafe.ExtensionPairing
import NadSafe.ExtensionPin
import NadSafe.FulfilledScript
import NadSafe.Utf8
import NadSafe.WebResults
import NadSafe.FieldRoundTrip
import NadSafe.CryptoCore
import NadSafe.KeyHierarchy
import NadSafe.RecoveryPhrase
import NadSafe.CsvText
import NadSafe.RecoveryBlobs
import NadSafe.CsvExport
import NadSafe.CredentialSave
import NadSafe.RecordedRuns
import NadSafe.ItemUpdates
import NadSafe.PendingSaves
import NadSafe.SealedCiphers
import NadSafe.DecryptedItems
import NadSafe.ItemEditing
import NadSafe.JsonText
import NadSafe.ServedScript
import NadSafe.VaultTransfer
import NadSafe.RecoveryLookup
import NadSafe.StoreScript
import NadSafe.ServerTables
import NadSafe.AccessQueries
import NadSafe.SyncAgreement
import NadSafe.CollectionFlags
import NadSafe.ServerModels
import NadSafe.OrgHandlers
import NadSafe.OrgIsolation
import NadSafe.OrgRequests
import NadSafe.DirectoryImport
import NadSafe.GroupIsolation
import NadSafe.ConfirmedAccess
import NadSafe.RelyScript
import NadSafe.OwnerRuns
import NadSafe.PlannedScript
import NadSafe.TableWrites
import NadSafe.CipherHandlers
import NadSafe.CipherUpdates
import NadSafe.AccessEdits
import NadSafe.BulkAccess
import NadSafe.CipherCollections
import NadSafe.CipherLinks
import NadSafe.TracedRuns
import NadSafe.SecondFactors
import NadSafe.TotpRuns
import NadSafe.ResponseScript
import NadSafe.EmailGuesses
import NadSafe.FactorRows
import NadSafe.EmailTokens
import NadSafe.FactorLockout
import NadSafe.AccountHandlers
import NadSafe.EmergencyHandlers
import NadSafe.EmergencyRuns
import NadSafe.CoreFrames
import NadSafe.AddressRuns
import NadSafe.MemberWrites
import NadSafe.AdminRanks
import NadSafe.ImportWrites
import NadSafe.PolicyHandlers
import NadSafe.MemberRequests
import NadSafe.SingleOrgRuns
import NadSafe.FactorWrites
import NadSafe.FactorPolicyRuns
import NadSafe.CsvDocuments
import NadSafe.FormulaCells
import NadSafe.LastPassImport
import NadSafe.KeePassImport
import NadSafe.AutofillHosts
import NadSafe.PhraseAgreement
import NadSafe.BitGroups
import NadSafe.Base32
import NadSafe.TotpCodes
import NadSafe.TotpAgreement
import NadSafe.BoundedBuffers
import NadSafe.PasswordClasses
import NadSafe.PasswordGenerator
import NadSafe.WebPasswords
import NadSafe.SendHandlers
import NadSafe.SendRuns
import NadSafe.RowImages
import NadSafe.KeyRotation
import NadSafe.RotationWrites
import NadSafe.RotationCiphers
import NadSafe.RotationRuns
import NadSafe.RotationAtomicity
import NadSafe.RotationCompleteness
import NadSafe.FirstFactor
import NadSafe.AuthenticatorKeys
import NadSafe.SustainedScript
import NadSafe.EmergencyTimeouts
import NadSafe.FileDepot
import NadSafe.RowTotals
import NadSafe.AttachmentSizes
import NadSafe.AttachmentQuota
import NadSafe.SendQuota
import NadSafe.FolderImports
import NadSafe.ImportIndices
import NadSafe.RowDeletes
import NadSafe.InviteCleanup
import NadSafe.ObscuredEmails
import NadSafe.RowOrder
import NadSafe.RevokedMembers
import NadSafe.SwapShuffle
import NadSafe.FairWords
import NadSafe.UnbiasedPasswords
import NadSafe.IpAddresses
import NadSafe.HttpFilter
import NadSafe.ImportTracks
import NadSafe.ImportEntries
import NadSafe.ImportGroups
import NadSafe.ImportRepeats
import NadSafe.AccountRequests
import NadSafe.AccountWrites
import NadSafe.ContractScript
import NadSafe.ObservedRuns
import NadSafe.AuthRequests
import NadSafe.AuthRequestRuns
import NadSafe.SessionHandlers
import NadSafe.CredentialRuns
import NadSafe.StampRuns
import NadSafe.SsoHandlers
import NadSafe.SsoRuns
import NadSafe.CursorPages
import NadSafe.EventLog
import NadSafe.EventPages
import NadSafe.LengthFrames
import NadSafe.MsgPack
import NadSafe.UpdateFrames
import NadSafe.UpdateHub
import NadSafe.HubRuns
import NadSafe.HistoryScript
import NadSafe.RegistrationHandlers
import NadSafe.RegistrationRuns
