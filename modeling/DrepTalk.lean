import DrepTalk.Forum.RichDiffContract
import DrepTalk.Delegation.StintStart
import DrepTalk.Delegation.ProvenanceCompute
import DrepTalk.Auth.SessionRuns
import DrepTalk.Notifications.FanoutFairness
import DrepTalk.Notifications.DispatchLoss
import DrepTalk.Multisig.MultisigRuns
import DrepTalk.Cip100.StaleSweep
import DrepTalk.Votes.VoteHistoryRuns
import DrepTalk.Votes.ReapRuns
import DrepTalk.Delegation.ResolutionRuns
import DrepTalk.Delegation.SinceRuns
import DrepTalk.Forum.ThreadRuns
import DrepTalk.Badges.AwardRuns
import DrepTalk.Badges.CountersAgree
import DrepTalk.Governance.ActionThreadRuns
import DrepTalk.Auth.PairingRuns
import DrepTalk.DrepLink.HandleRuns
import DrepTalk.DrepLink.Resolve
import DrepTalk.Delegation.DigestRuns
import DrepTalk.Governance.PoolEconomicsRuns
import DrepTalk.Dreps.StatusJobs
import DrepTalk.Dreps.Directory
import DrepTalk.Governance.ParamLogRuns
import DrepTalk.Governance.PinRuns
import DrepTalk.Surveys.SurveyThreads
import DrepTalk.Surveys.TallyJoin
import DrepTalk.Governance.DraftLinkRuns
import DrepTalk.Forum.WriteRuns
import DrepTalk.Auth.AccountRuns
import DrepTalk.Auth.RateLimiter
import DrepTalk.Analytics.EpochSpread
import DrepTalk.Analytics.EpochStatsRuns
import DrepTalk.Governance.TallyEvents
import DrepTalk.Governance.VoteTrend
import DrepTalk.Governance.FormRoundTrip
import DrepTalk.Dreps.PowerHistoryRuns
import DrepTalk.Dreps.AvatarObjectRuns
import DrepTalk.Dreps.MetadataGc
import DrepTalk.Analytics.VoteConcentration
import DrepTalk.Forum.LineDiff
import DrepTalk.Forum.ReplyOrder
import DrepTalk.Forum.HtmlReparse
import DrepTalk.Grants.RedeemGrant
import DrepTalk.Votes.HostedRationaleRuns
import DrepTalk.Votes.VoteJobRuns
import DrepTalk.Wallet.InputSelection
import DrepTalk.Match.Questions
import DrepTalk.Governance.CommitteeUpdate
import DrepTalk.Governance.ParamUpdate
import DrepTalk.Governance.StakeView
import DrepTalk.Governance.CommitteeTally
import DrepTalk.Search.Scopes
import DrepTalk.Notifications.GroupGuard
import DrepTalk.Badges.Streaks
import DrepTalk.Koios.MapLimit
